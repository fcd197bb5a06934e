import AccessoryController.Library.History
import AccessoryController.Library.Latch
import AccessoryController.ProfileRuntime.RecoverySeen
import AccessoryController.ProfileRuntime.Service

/-!
# The profile runtime service fails off

A fault makes every signal unavailable for frames stamped up to its instant, and its publication
shows that on every channel. Nothing but a later frame changes this. A latch that is set stands for
such a fault, because the runtime reports a live transport after every frame, and that clears it.

## Main definitions

* `Guarded`, `FailedOff`: what a fault leaves in the provider and on the channels
* `RuntimeSound`: what holds in every run
* `Acknowledged`: the guarantee of the runtime

## Main results

* `mem_merge`: a merged result names what either part names
* `failedOff_after`: a service stays failed off until it processes a later frame
* `profile_service_fails_off`: the service over whole runs
-/

namespace AccessoryController.ProfileRuntime

open VehicleCore VehicleSignals AccessoryController.SignalNotification
open AccessoryController.Mazda (RuntimeLifecycle TransportDiagnostics)
open ProfileState (fault_signal profile_step reset_signal tables_of_profile)

/-! ### Merged lists -/

theorem mem_appendUnique {values : List SignalId} {id : SignalId}
    (room : id ∉ values → values.length < kMaxRuntimeSignals) (other : SignalId) :
    other ∈ appendUnique values id ↔ other ∈ values ∨ other = id := by
  unfold appendUnique
  split
  · next there => exact ⟨.inl, fun h => h.elim (fun mem => mem) fun same => same ▸ there⟩
  · next absent => rw [if_pos (room absent), List.mem_append, List.mem_singleton]

theorem nodup_appendUnique {values : List SignalId} (nodup : values.Nodup) (id : SignalId) :
    (appendUnique values id).Nodup := by
  unfold appendUnique
  split
  · exact nodup
  next absent =>
  split
  · exact nodup.append (List.nodup_singleton id) (List.disjoint_singleton.mpr absent)
  · exact nodup

/-- **Appending loses nothing** while all names are among the names of a small catalogue. -/
theorem mem_foldl_appendUnique {names target source : List SignalId}
    (small : names.length ≤ kMaxRuntimeSignals) (nodup : target.Nodup) (known : target ⊆ names)
    (known' : source ⊆ names) (id : SignalId) :
    id ∈ source.foldl appendUnique target ↔ id ∈ target ∨ id ∈ source := by
  induction source generalizing target with
  | nil => simp
  | cons first source ih =>
    obtain ⟨here, others⟩ := List.cons_subset.mp known'
    have room : first ∉ target → target.length < kMaxRuntimeSignals := by
      intro absent
      -- the target misses one of the names
      have fits := ((List.nodup_cons.mpr ⟨absent, nodup⟩).subperm
        (List.cons_subset.mpr ⟨here, known⟩)).length_le
      rw [List.length_cons] at fits
      exact Nat.lt_of_lt_of_le fits small
    have wider : appendUnique target first ⊆ names := fun other mem =>
      ((mem_appendUnique room other).mp mem).elim (fun h => known h) fun same => same ▸ here
    rw [List.foldl_cons, ih (nodup_appendUnique nodup first) wider others, mem_appendUnique room,
      List.mem_cons, or_assoc]

/-- The lists of a result name signals of the catalogue, each once. -/
structure NamesKnown (tables : ProfileTables) (result : ProviderProcessResult) : Prop where
  changed : result.changed.Nodup ∧ result.changed ⊆ tables.catalog.map SignalMetadata.id
  due : result.due.Nodup ∧ result.due ⊆ tables.catalog.map SignalMetadata.id
  recovered : result.recovered.Nodup ∧ result.recovered ⊆ tables.catalog.map SignalMetadata.id

/-- **A merged result** names what either part names. -/
structure MergesAll (target source merged : ProviderProcessResult) : Prop where
  changed : ∀ id, id ∈ merged.changed ↔ id ∈ target.changed ∨ id ∈ source.changed
  due : ∀ id, id ∈ merged.due ↔ id ∈ target.due ∨ id ∈ source.due
  recovered : ∀ id, id ∈ merged.recovered ↔ id ∈ target.recovered ∨ id ∈ source.recovered

theorem mem_merge {tables : ProfileTables} (small : tables.catalog.length ≤ kMaxRuntimeSignals)
    {target source : ProviderProcessResult} (known : NamesKnown tables target)
    (known' : NamesKnown tables source) : MergesAll target source (merge target source) := by
  have few : (tables.catalog.map SignalMetadata.id).length ≤ kMaxRuntimeSignals := by
    rwa [List.length_map]
  exact ⟨mem_foldl_appendUnique few known.changed.1 known.changed.2 known'.changed.2,
    mem_foldl_appendUnique few known.due.1 known.due.2 known'.due.2,
    mem_foldl_appendUnique few known.recovered.1 known.recovered.2 known'.recovered.2⟩

/-! ### The provider -/

/-- A provider that is used has a checked profile. -/
def Checked (s : ProfileState) : Prop := s.validTables = true → tableWellFormed s.tables

variable {isValid : RawCanFrame → Bool} {s : ProfileState} {id : SignalId}

theorem Checked.step (checked : Checked s) (call : ProviderCall) :
    Checked (s.step isValid call).1 := by
  obtain ⟨tables, valid⟩ := Prod.mk.inj (profile_step isValid s call)
  unfold Checked
  rw [tables, valid]
  exact checked

variable (isValid) in
theorem call_of_invalid (invalid : s.validTables = false) (call : ProviderCall) :
    s.step isValid call = (s, { status := .faulted }) := by
  cases call <;> exact if_pos (by rw [invalid]; rfl)

theorem NamesKnown.nothing (tables : ProfileTables) (status : ProviderProcessStatus) :
    NamesKnown tables { status } :=
  ⟨⟨List.nodup_nil, List.nil_subset _⟩, ⟨List.nodup_nil, List.nil_subset _⟩, List.nodup_nil,
    List.nil_subset _⟩

variable (isValid) in
/-- A call names signals of the catalogue. -/
theorem namesKnown_step (checked : Checked s) (call : ProviderCall) :
    NamesKnown s.tables (s.step isValid call).2 := by
  rcases valid : s.validTables with _ | _
  · rw [call_of_invalid isValid valid]
    exact .nothing _ _
  have wellFormed := checked valid
  have lists := @completeLists_step isValid s wellFormed valid call
  have named {names : List SignalId} {p : SignalId → Prop} (complete : CompleteList s names p)
      (knows : ∀ id, p id → (s.tables.catalog.find id).isSome = true) :
      names.Nodup ∧ names ⊆ s.tables.catalog.map SignalMetadata.id :=
    ⟨complete.nodup, fun id mem =>
      (known_iff wellFormed.2.1).mp (knows id ((complete.complete id).mp mem))⟩
  refine ⟨named lists.changed fun id changes => ?_, named lists.due fun id expires => ?_,
    named lists.recovered fun id recovers => ?_⟩
  · cases call with
    | process frame nowUs => exact known_of_accepts wellFormed changes
    | service nowUs => exact changes.elim
    | fault nowUs => exact changes.1
    | reset nowUs => exact changes
  · cases call with
    | reset nowUs => exact expires.elim
    | _ => exact expires.1
  · cases call with
    | process frame nowUs => exact known_of_accepts wellFormed (accepts_of_recovers recovers)
    | _ => exact recovers.elim

/-- **What a fault leaves**: no signal has a usable value, and none takes a frame stamped up to
its instant. -/
def Guarded (sinceUs : MonotonicTimestamp) (s : ProfileState) : Prop :=
  s.validTables = true → ∀ id, (s.tables.catalog.find id).isSome = true →
    ((s.signal id).hasValue = true → (s.signal id).invalid = true) ∧
      (s.signal id).hasWatermark = true ∧ sinceUs ≤ (s.signal id).watermarkUs

variable {reading : SignalReading} {sinceUs : MonotonicTimestamp}

theorem valid_of_read {nowUs : MonotonicTimestamp} (read : s.read id nowUs = .ok reading) :
    s.validTables = true := by
  unfold ProfileState.read at read
  split at read
  · cases read
  split at read
  · cases read
  split at read
  · cases read
  next valid => simpa using valid

theorem Guarded.not_usable (guarded : Guarded sinceUs s) {nowUs : MonotonicTimestamp}
    (read : s.read id nowUs = .ok reading) : ¬ usable reading := by
  intro use
  obtain ⟨known, hasValue, valid, -⟩ := read_usable read use
  have invalid := (guarded (valid_of_read read) id known).1 hasValue
  rw [valid] at invalid
  cases invalid

theorem not_available (unusable : ¬ usable reading) : available reading = false := by
  unfold available
  rcases fresh : reading.availability == Availability.fresh with _ | _
  · rcases unverified : reading.availability == Availability.freshnessUnverified with _ | _
    · exact Bool.and_false _
    · exact absurd (.inr (eq_of_beq unverified)) unusable
  · exact absurd (.inl (eq_of_beq fresh)) unusable

/-- The slot of a signal after a call, apart from the report of its expiry. -/
theorem core_signal {s' : ProfileState} (profile : s'.profile = s.profile) {sample : SignalState}
    (same : (s'.signals (signalIndex s.tables id)).core = sample.core) :
    (s'.signal id).core = sample.core := by
  rw [ProfileState.signal, tables_of_profile profile]
  exact same

theorem guarded_of_slots {s' : ProfileState} (profile : s'.profile = s.profile)
    (slots : s.validTables = true → ∀ id, (s.tables.catalog.find id).isSome = true →
      ∃ sample : SignalState, (s'.signals (signalIndex s.tables id)).core = sample.core ∧
        (sample.hasValue = true → sample.invalid = true) ∧ sample.hasWatermark = true ∧
        sinceUs ≤ sample.watermarkUs) : Guarded sinceUs s' := by
  obtain ⟨tables, validTables⟩ := Prod.mk.inj profile
  intro valid id known
  obtain ⟨sample, same, dark, watermark, late⟩ :=
    slots (validTables.symm.trans valid) id (by rw [← tables]; exact known)
  have core := core_signal profile same
  obtain ⟨-, -, watermarkUs, hasWatermark, hasValue, invalid, -⟩ := SignalState.mk.inj core
  rw [hasValue, invalid, hasWatermark, watermarkUs]
  exact ⟨dark, watermark, late⟩

theorem raiseWatermark_spec (sample : SignalState) (nowUs : MonotonicTimestamp) :
    (sample.raiseWatermark nowUs).hasWatermark = true ∧
      nowUs ≤ (sample.raiseWatermark nowUs).watermarkUs ∧
      (sample.hasWatermark = true →
        sample.watermarkUs ≤ (sample.raiseWatermark nowUs).watermarkUs) := by
  unfold SignalState.raiseWatermark
  split
  · next behind =>
    refine ⟨rfl, Nat.le_refl _, fun watermark => ?_⟩
    exact Nat.le_of_lt (behind.resolve_left (by simp [watermark]))
  · next ahead =>
    obtain ⟨watermark, late⟩ := not_or.mp ahead
    exact ⟨by simpa using watermark, Nat.not_lt.mp late, fun _ => Nat.le_refl _⟩

theorem guarded_fault (nowUs : MonotonicTimestamp) : Guarded nowUs (s.fault nowUs).1 := by
  refine guarded_of_slots (profile_step (fun _ => false) s (.fault nowUs))
    fun valid id known => ?_
  obtain ⟨metadata, hmetadata⟩ := Option.isSome_iff_exists.mp known
  refine ⟨_, fault_signal valid (signalIndex_spec hmetadata).1, fun _ => rfl, ?_⟩
  obtain ⟨watermark, late, -⟩ :=
    raiseWatermark_spec (s.signals (signalIndex s.tables id)) nowUs
  exact ⟨watermark, late⟩

/-- A frame that a signal does not take leaves its slot alone. -/
theorem deliver_of_refused {frame : RawCanFrame} (refused : accepts isValid s frame id = false) :
    (s.signal id).deliver frame.timestampUs (decodeOf isValid s.tables frame id) = s.signal id := by
  unfold accepts at refused
  rcases decoded : decodeOf isValid s.tables frame id with _ | decode
  · rfl
  · rw [decoded, Option.isSome_some, Bool.true_and, Option.isSome_eq_false_iff,
      Option.isNone_iff_eq_none] at refused
    rcases decode with _ | value <;> simp only [SignalState.deliver, refused]

/-- **A guarded provider stays so** until it processes a later frame. -/
theorem guarded_step (checked : Checked s) (guarded : Guarded sinceUs s) {call : ProviderCall}
    (early : ∀ frame nowUs, call = .process frame nowUs → frame.timestampUs ≤ sinceUs) :
    Guarded sinceUs (s.step isValid call).1 := by
  refine guarded_of_slots (profile_step isValid s call) fun valid id known => ?_
  obtain ⟨metadata, hmetadata⟩ := Option.isSome_iff_exists.mp known
  have slot := (signalIndex_spec hmetadata).1
  obtain ⟨dark, watermark, late⟩ := guarded valid id known
  have raised (nowUs : MonotonicTimestamp) :=
    raiseWatermark_spec (s.signals (signalIndex s.tables id)) nowUs
  cases call with
  | process frame nowUs =>
    refine ⟨s.signal id, (ProfileState.process_signal (checked valid) valid known).trans ?_,
      dark, watermark, late⟩
    -- the frame is not stamped after the watermark
    have refused : (s.signal id).updateWatermark frame.timestampUs = none :=
      if_pos ⟨watermark, Nat.le_trans (early frame nowUs rfl) late⟩
    refine congrArg SignalState.core (deliver_of_refused ?_)
    rw [accepts, refused, Option.isSome_none, Bool.and_false]
  | service nowUs => exact ⟨s.signal id, ProfileState.service_signal _, dark, watermark, late⟩
  | fault nowUs =>
    exact ⟨_, fault_signal valid slot, fun _ => rfl, (raised nowUs).1,
      Nat.le_trans late ((raised nowUs).2.2 watermark)⟩
  | reset nowUs =>
    exact ⟨_, congrArg SignalState.core (reset_signal valid slot), (fun h => by cases h),
      rfl,
      Nat.le_trans late ((raised nowUs).2.2 watermark)⟩

/-! ### The channels -/

variable {κ : Type}

/-- A running channel shows what was published last. -/
theorem available_publish {c : Channel SignalValue Slot} (running : c.running = true)
    (reading : SignalReading) :
    available (c.publish reading).1.current = available reading := by
  unfold Channel.publish
  rw [running, Bool.not_true, if_neg Bool.false_ne_true]
  split
  · next same =>
    unfold sameReading at same
    rw [Bool.and_eq_true, Bool.and_eq_true] at same
    obtain ⟨⟨value, availability⟩, -⟩ := same
    unfold available
    rw [eq_of_beq availability]
    -- an equal value is there on both sides
    rcases old : c.current.value with _ | _ <;> rcases new : reading.value with _ | _ <;>
      rw [old, new] at value <;> first | rfl | cases value
  · rfl

/-- A channel shows nothing available once what is not available was published to it. -/
theorem dark_publishResult {binding : NotificationChannelBinding κ}
    {result : ProviderProcessResult} {readings : SignalId → Except SignalStatus SignalReading}
    (running : binding.channel.running = true)
    (dark : ∀ reading, readings binding.id = .ok reading → available reading = false)
    (named : available binding.channel.current = true →
      binding.id ∈ result.changed ∧ ∃ reading, readings binding.id = .ok reading) :
    available (binding.publishResult result readings).channel.current = false := by
  rcases shown : available binding.channel.current with _ | _
  · have unread : ChannelSound False binding.channel := fun bright => by
      rw [shown] at bright
      cases bright
    have after := sound_publishResult unread result fun reading read bright => by
      rw [dark reading read] at bright
      cases bright
    exact Bool.eq_false_iff.mpr fun bright => (after bright).1
  · obtain ⟨changed, reading, read⟩ := named shown
    unfold NotificationChannelBinding.publishResult
    dsimp only
    rw [decide_eq_true changed, read, Bool.not_true, Bool.and_false, Bool.false_and,
      if_neg Bool.false_ne_true]
    rw [available_publish]
    · exact dark reading read
    · split
      · exact (running_publish _ _).trans running
      · exact running

/-- The channels of a provider belong to known signals of a checked profile. -/
theorem known_of_channel {n : NotificationState κ} (checked : Checked s)
    (consistent : Consistent s n) {index : ℕ} (within : index < n.channelCount) :
    s.validTables = true ∧ (s.tables.catalog.find (n.channels index).id).isSome = true := by
  rw [consistent.count] at within
  rcases valid : s.validTables with _ | _
  · unfold initializeNotificationChannels at within
    rw [valid] at within
    exact absurd within (Nat.not_lt_zero _)
  refine ⟨rfl, (known_iff (checked valid).2.1).mpr ?_⟩
  rw [consistent.ids]
  unfold initializeNotificationChannels at within ⊢
  rw [valid, if_pos rfl] at within ⊢
  have named := List.getElem?_eq_getElem within
  dsimp only
  rw [named]
  exact List.mem_map_of_mem (List.mem_of_mem_filter (List.getElem_mem within))

/-- The notifications of a running channel run. -/
theorem running_of_channel {n : NotificationState κ} (consistent : Consistent s n) {index : ℕ}
    (within : index < n.channelCount) (running : (n.channels index).channel.running = true) :
    n.running = true := by
  rcases stopped : n.running with _ | _
  · have rest := (consistent.rest stopped index within).2
    rw [running] at rest
    cases rest
  · rfl

/-- **No signal is usable**, and no running channel shows an available reading. -/
structure FailedOff (sinceUs : MonotonicTimestamp) (r : RuntimeState κ) : Prop where
  guarded : Guarded sinceUs r.provider
  channels : ∀ index < r.notifications.channelCount,
    (r.notifications.channels index).channel.running = true →
      available (r.notifications.channels index).channel.current = false

/-- A channel shows nothing available of a signal that was made unavailable. -/
structure RuntimeSound (r : RuntimeState κ) : Prop where
  sound : r.Sound
  checked : Checked r.provider
  shown : ∀ index < r.notifications.channelCount,
    (r.notifications.channels index).channel.running = true →
      (r.provider.signal (r.notifications.channels index).id).invalid = true →
        available (r.notifications.channels index).channel.current = false

section Publication

variable {r : RuntimeState κ} {provider : ProfileState}

/-- The provider changes, and its notifications publish what changed. -/
def RuntimeState.published (r : RuntimeState κ) (provider : ProfileState)
    (summary : ProviderProcessResult) (nowUs : MonotonicTimestamp) : RuntimeState κ :=
  (RuntimeState.notify { r with provider } (.publish summary fun id => provider.read id nowUs)).1

/-- **A publication darkens** the channels that it names, and those of signals that stay dark. -/
theorem published_dark (sound : RuntimeSound r) (profile : provider.profile = r.provider.profile)
    (summary : ProviderProcessResult) (nowUs : MonotonicTimestamp) {index : ℕ}
    (within : index < r.notifications.channelCount)
    (dark : ∀ reading, provider.read (r.notifications.channels index).id nowUs = .ok reading →
      available reading = false)
    (named : (r.notifications.channels index).channel.running = true →
      available (r.notifications.channels index).channel.current = true →
        (r.notifications.channels index).id ∈ summary.changed)
    (running : ((r.published provider summary nowUs).notifications.channels
      index).channel.running = true) :
    available ((r.published provider summary nowUs).notifications.channels
      index).channel.current = false := by
  have valid : provider.validTables = true :=
    (congrArg Prod.snd profile).trans
      (known_of_channel sound.checked sound.sound.consistent within).1
  have published : (r.published provider summary nowUs).notifications =
      r.notifications.publish provider summary fun id => provider.read id nowUs := rfl
  rw [published] at running ⊢
  unfold NotificationState.publish at running ⊢
  rw [valid, Bool.not_true, Bool.false_or] at running ⊢
  rcases live : r.notifications.running with _ | _
  · rw [live] at running
    have stopped := running_of_channel sound.sound.consistent within running
    rw [live] at stopped
    cases stopped
  rw [live, if_neg (by decide), channels_mapChannels, if_pos within] at running
  rw [if_neg (by decide), channels_mapChannels, if_pos within]
  rw [running_publishResult] at running
  refine dark_publishResult running dark fun shown => ⟨named running shown, ?_⟩
  obtain ⟨readable, -⟩ := sound.sound.channels index shown
  obtain ⟨reading, read⟩ := readable nowUs
  exact readable_of_read profile read nowUs

theorem frame_published (r : RuntimeState κ) (provider : ProfileState)
    (summary : ProviderProcessResult) (nowUs : MonotonicTimestamp) :
    (r.published provider summary nowUs).provider = provider ∧
      (r.published provider summary nowUs).notifications.channelCount =
        r.notifications.channelCount ∧
      ∀ index, ((r.published provider summary nowUs).notifications.channels index).id =
        (r.notifications.channels index).id := by
  refine ⟨rfl, ?_, fun index => ?_⟩
  · show (r.notifications.publish provider summary _).channelCount = _
    unfold NotificationState.publish
    split <;> rfl
  · show ((r.notifications.publish provider summary _).channels index).id = _
    unfold NotificationState.publish
    split
    · rfl
    · rw [channels_mapChannels]
      split
      · exact (publishResult_frame summary _ _).1
      · rfl

/-- **A guarded provider** that publishes every channel that is still available fails off. -/
theorem failedOff_published (sound : RuntimeSound r)
    (profile : provider.profile = r.provider.profile) (guarded : Guarded sinceUs provider)
    (summary : ProviderProcessResult) (nowUs : MonotonicTimestamp)
    (named : ∀ index < r.notifications.channelCount,
      (r.notifications.channels index).channel.running = true →
        available (r.notifications.channels index).channel.current = true →
          (r.notifications.channels index).id ∈ summary.changed) :
    FailedOff sinceUs (r.published provider summary nowUs) := by
  obtain ⟨same, count, -⟩ := frame_published r provider summary nowUs
  refine ⟨same.symm ▸ guarded, fun index within => ?_⟩
  rw [count] at within
  exact published_dark sound profile summary nowUs within
    (fun reading read => not_available (guarded.not_usable read)) (named index within)

/-- A publication keeps a state sound when it names every signal that became unavailable. -/
theorem runtimeSound_published (sound : RuntimeSound r)
    (profile : provider.profile = r.provider.profile) (summary : ProviderProcessResult)
    (nowUs : MonotonicTimestamp)
    (reports : ∀ id, (r.provider.tables.catalog.find id).isSome = true →
      (provider.signal id).invalid = true →
        (r.provider.signal id).invalid = true ∨ id ∈ summary.changed) :
    RuntimeSound (r.published provider summary nowUs) := by
  obtain ⟨same, count, ids⟩ := frame_published r provider summary nowUs
  have sound' : NotificationsSound provider r.notifications := sound.sound.of_profile profile
  refine ⟨notificationsSound_publish sound' summary nowUs, ?_, fun index within running gone => ?_⟩
  · obtain ⟨tables, valid⟩ := Prod.mk.inj profile
    unfold Checked
    rw [same, tables, valid]
    exact sound.checked
  rw [count] at within
  rw [same, ids] at gone
  obtain ⟨-, known⟩ := known_of_channel sound.checked sound.sound.consistent within
  refine published_dark sound profile summary nowUs within (fun reading read => ?_)
    (fun live bright => ?_) running
  · have unavailable := read_invalid gone read
    exact not_available fun use => use.elim (fun h => nomatch h.symm.trans unavailable)
      fun h => nomatch h.symm.trans unavailable
  · refine (reports _ known gone).resolve_left fun before => ?_
    rw [sound.shown index within live before] at bright
    cases bright

end Publication

/-! ### What a call makes unavailable -/

variable (isValid) in
/-- **A signal becomes unavailable** only in a call that names it. -/
theorem invalid_step (checked : Checked s) (call : ProviderCall)
    (known : (s.tables.catalog.find id).isSome = true)
    (gone : ((s.step isValid call).1.signal id).invalid = true) :
    (s.signal id).invalid = true ∨ id ∈ (s.step isValid call).2.changed := by
  rcases valid : s.validTables with _ | _
  · rw [call_of_invalid isValid valid] at gone
    exact .inl gone
  have wellFormed := checked valid
  have lists := (@completeLists_step isValid s wellFormed valid call).changed.complete
  obtain ⟨metadata, hmetadata⟩ := Option.isSome_iff_exists.mp known
  have slot := (signalIndex_spec hmetadata).1
  have core {sample : SignalState}
      (same : ((s.step isValid call).1.signals (signalIndex s.tables id)).core = sample.core) :
      sample.invalid = true := by
    obtain ⟨-, -, -, -, -, invalid, -⟩ :=
      SignalState.mk.inj (core_signal (profile_step isValid s call) same)
    exact invalid.symm.trans gone
  rw [lists]
  cases call with
  | process frame nowUs =>
    have delivered := core (ProfileState.process_signal wellFormed valid known)
    rcases taken : accepts isValid s frame id with _ | _
    · exact .inl ((congrArg SignalState.invalid (deliver_of_refused taken)).symm.trans delivered)
    · exact .inr taken
  | service nowUs =>
    have same : ((s.service nowUs).1.signals (signalIndex s.tables id)).core =
      (s.signal id).core := ProfileState.service_signal _
    exact .inl (core same)
  | fault nowUs =>
    rcases before : (s.signal id).invalid with _ | _
    · exact .inr ⟨known, before⟩
    · exact .inl rfl
  | reset nowUs =>
    have cleared := core (congrArg SignalState.core (reset_signal valid slot))
    cases cleared

theorem invalid_reset (valid : s.validTables = true)
    (known : (s.tables.catalog.find id).isSome = true) (nowUs : MonotonicTimestamp) :
    ((s.reset nowUs).1.signal id).invalid = false := by
  rcases gone : ((s.reset nowUs).1.signal id).invalid with _ | _
  · rfl
  · obtain ⟨metadata, hmetadata⟩ := Option.isSome_iff_exists.mp known
    have same := @reset_signal s nowUs valid _ (signalIndex_spec hmetadata).1
    have tables := tables_of_profile
      (profile_step (fun _ => false) s (.reset nowUs))
    rw [ProfileState.signal, show (s.reset nowUs).1.tables = s.tables from tables, same] at gone
    cases gone

theorem invalid_fault (valid : s.validTables = true)
    (known : (s.tables.catalog.find id).isSome = true) (nowUs : MonotonicTimestamp) :
    ((s.fault nowUs).1.signal id).invalid = true := by
  obtain ⟨metadata, hmetadata⟩ := Option.isSome_iff_exists.mp known
  have core := core_signal (profile_step (fun _ => false) s (.fault nowUs))
    (@fault_signal s nowUs valid _ (signalIndex_spec hmetadata).1)
  exact congrArg SignalState.invalid core

section Calls

variable {r : RuntimeState κ}

/-- A call on the provider that is published. -/
theorem runtimeSound_call (sound : RuntimeSound r) (call : ProviderCall)
    (nowUs : MonotonicTimestamp) :
    RuntimeSound (r.published (r.provider.step isValid call).1 (r.provider.step isValid call).2
      nowUs) :=
  runtimeSound_published sound (profile_step isValid _ call) _ nowUs
    fun _ known gone => invalid_step isValid sound.checked call known gone

/-- A failed-off state stays so in a call that brings no later frame. -/
theorem failedOff_call (sound : RuntimeSound r) (off : FailedOff sinceUs r) {call : ProviderCall}
    (early : ∀ frame nowUs, call = .process frame nowUs → frame.timestampUs ≤ sinceUs)
    (nowUs : MonotonicTimestamp) :
    FailedOff sinceUs (r.published (r.provider.step isValid call).1
      (r.provider.step isValid call).2 nowUs) := by
  refine failedOff_published sound (profile_step isValid _ call)
    (guarded_step sound.checked off.guarded early) _ nowUs fun index within running bright => ?_
  rw [off.channels index within running] at bright
  cases bright

variable (isValid) in
/-- **A fault after a call** that is published with it fails off. -/
theorem failedOff_fault (sound : RuntimeSound r) (call : ProviderCall)
    (faultUs nowUs : MonotonicTimestamp) :
    let first := r.provider.step isValid call
    let fault := first.1.fault faultUs
    MergesAll first.2 fault.2 (merge first.2 fault.2) ∧
      RuntimeSound (r.published fault.1 (merge first.2 fault.2) nowUs) ∧
      FailedOff faultUs (r.published fault.1 (merge first.2 fault.2) nowUs) ∧
      ∀ sinceUs, FailedOff sinceUs r →
        (∀ frame nowUs, call = .process frame nowUs → frame.timestampUs ≤ sinceUs) →
          FailedOff sinceUs (r.published fault.1 (merge first.2 fault.2) nowUs) := by
  intro first fault
  have checked : Checked first.1 := sound.checked.step call
  have profile : first.1.profile = r.provider.profile := profile_step isValid _ call
  have profile' : fault.1.profile = r.provider.profile :=
    (profile_step isValid _ (.fault faultUs)).trans profile
  have tables := tables_of_profile profile
  have merges : MergesAll first.2 fault.2 (merge first.2 fault.2) := by
    rcases valid : r.provider.validTables with _ | _
    · -- without a checked profile nothing is named
      have nothing : first.2 = { status := .faulted } :=
        congrArg Prod.snd (call_of_invalid isValid valid call)
      have nothing' : fault.2 = { status := .faulted } :=
        congrArg Prod.snd (call_of_invalid isValid
          ((congrArg Prod.snd profile).trans valid) (.fault faultUs))
      have small : ({} : ProfileTables).catalog.length ≤ kMaxRuntimeSignals := Nat.zero_le _
      rw [nothing, nothing']
      exact mem_merge small (.nothing _ _) (.nothing _ _)
    · exact mem_merge (sound.checked valid).1 (namesKnown_step isValid sound.checked call)
        (tables ▸ namesKnown_step isValid checked (.fault faultUs))
  -- what is not available any more after both was named by one of them
  have reports (id : SignalId) (known : (r.provider.tables.catalog.find id).isSome = true)
      (gone : (fault.1.signal id).invalid = true) :
      (r.provider.signal id).invalid = true ∨ id ∈ (merge first.2 fault.2).changed := by
    rw [merges.changed]
    rcases invalid_step isValid checked (.fault faultUs) (tables ▸ known) gone with
      before | named
    · exact (invalid_step isValid sound.checked call known before).imp_right .inl
    · exact .inr (.inr named)
  refine ⟨merges, runtimeSound_published sound profile' _ nowUs reports,
    failedOff_published sound profile' (guarded_fault faultUs) _ nowUs
      fun index within running bright => ?_, fun sinceUs off early => ?_⟩
  swap
  · have guarded : Guarded sinceUs (first.1.step isValid (.fault faultUs)).1 :=
      guarded_step checked (guarded_step sound.checked off.guarded early)
        fun _ _ same => nomatch same
    refine failedOff_published sound profile' guarded _ nowUs fun index within running bright => ?_
    rw [off.channels index within running] at bright
    cases bright
  obtain ⟨valid, known⟩ := known_of_channel sound.checked sound.sound.consistent within
  refine (reports _ known ?_).resolve_left fun before => ?_
  · exact invalid_fault ((congrArg Prod.snd profile).trans valid) (tables ▸ known) faultUs
  · rw [sound.shown index within running before] at bright
    cases bright

/-- A provider that was reset has made nothing unavailable. -/
theorem runtimeSound_of_reset (sound : r.Sound) (checked : Checked s) (nowUs : MonotonicTimestamp)
    (reset : r.provider = (s.reset nowUs).1) : RuntimeSound r := by
  have checked' : Checked r.provider :=
    reset ▸ @Checked.step (fun _ => false) _ checked (.reset nowUs)
  refine ⟨sound, checked', fun index within running gone => ?_⟩
  obtain ⟨valid, known⟩ := known_of_channel checked' sound.consistent within
  have profile : r.provider.profile = s.profile :=
    reset ▸ profile_step (fun _ => false) s (.reset nowUs)
  have tables := tables_of_profile profile
  rw [reset, invalid_reset ((congrArg Prod.snd profile).symm.trans valid) (tables ▸ known)] at gone
  cases gone

theorem sound_reset (sound : r.Sound) (nowUs : MonotonicTimestamp) :
    RuntimeState.Sound { r with provider := (r.provider.reset nowUs).1 } :=
  NotificationsSound.of_profile sound
    (profile_step (fun _ => false) r.provider (.reset nowUs))

theorem failedOff_reset (checked : Checked r.provider) (off : FailedOff sinceUs r)
    (nowUs : MonotonicTimestamp) :
    FailedOff sinceUs { r with provider := (r.provider.reset nowUs).1 } := by
  have guarded : Guarded sinceUs (r.provider.step (fun _ => false) (.reset nowUs)).1 :=
    guarded_step checked off.guarded fun _ _ same => nomatch same
  exact ⟨guarded, off.channels⟩

/-- A stop changes what no channel shows, and starts none. -/
theorem stop_frame (n : NotificationState κ) : n.stop.channelCount = n.channelCount ∧
    ∀ index, (n.stop.channels index).channel.current = (n.channels index).channel.current ∧
      ((n.stop.channels index).channel.running = true →
        (n.channels index).channel.running = true) := by
  have quiet (c : Channel SignalValue Slot) :
      c.stop.1.current = c.current ∧ (c.stop.1.running = true → c.running = true) := by
    unfold Channel.stop
    split
    · exact ⟨rfl, fun running => running⟩
    split
    · exact ⟨rfl, fun running => running⟩
    · exact ⟨rfl, fun running => nomatch running⟩
  have stopped (index : ℕ) : ((n.mapChannels fun binding =>
        { binding with channel := binding.channel.stop.1 }).channels index).channel.current =
          (n.channels index).channel.current ∧
      (((n.mapChannels fun binding =>
        { binding with channel := binding.channel.stop.1 }).channels index).channel.running = true →
          (n.channels index).channel.running = true) := by
    rw [channels_mapChannels]
    split
    · exact quiet _
    · exact ⟨rfl, fun running => running⟩
  unfold NotificationState.stop
  split
  · exact ⟨rfl, stopped⟩
  refine ⟨rfl, fun index => ?_⟩
  rw [channels_mapChannels]
  split
  · -- what is detached keeps its face
    obtain ⟨current, rest⟩ := Prod.mk.inj (face_detachAll ((n.mapChannels fun binding =>
      { binding with channel := binding.channel.stop.1 }).channels index))
    obtain ⟨-, running⟩ := Prod.mk.inj rest
    rw [current, running]
    exact stopped index
  · exact stopped index

/-- The channels of a start that is not refused show nothing but what was read. -/
theorem failedOff_setRunning (sound : RuntimeSound r) (off : FailedOff sinceUs r) (running : Bool)
    (nowUs : MonotonicTimestamp) :
    FailedOff sinceUs (r.notify (.setRunning running (r.readings nowUs))).1 := by
  refine ⟨off.guarded, ?_⟩
  show ∀ index < (r.notifications.setRunning r.provider running (r.readings nowUs)).channelCount, _
  unfold RuntimeState.notify NotificationState.step NotificationState.setRunning
  dsimp only
  split
  · exact off.channels
  split
  · exact off.channels
  split
  · split
    · exact off.channels
    next stopped =>
    have stopped : r.notifications.running = false := by simpa using stopped
    obtain ⟨-, count, channels⟩ :=
      start_running sound.sound.consistent stopped (r.readings nowUs)
    intro index within started
    rw [count] at within
    rw [channels, if_pos within]
    have rest := sound.sound.consistent.rest stopped index within
    have fresh : ChannelSound False (r.notifications.channels index).channel.start.1 := by
      unfold Channel.start
      rw [rest.1, rest.2]
      exact fun bright => absurd bright Bool.false_ne_true
    let started : NotificationChannelBinding κ :=
      { r.notifications.channels index with
        channel := (r.notifications.channels index).channel.start.1 }
    have after : ChannelSound False (started.publishInitial (r.readings nowUs)).channel := by
      refine sound_publishInitial fresh fun reading read bright => ?_
      have read : r.provider.read started.id nowUs = .ok reading := read
      rw [not_available (off.guarded.not_usable read)] at bright
      cases bright
    exact Bool.eq_false_iff.mpr fun bright => (after bright).1
  split
  · exact off.channels
  · obtain ⟨count, channels⟩ := stop_frame r.notifications
    intro index within running
    rw [(channels index).1]
    exact off.channels index (count ▸ within) ((channels index).2 running)

theorem failedOff_client (sound : RuntimeSound r) (off : FailedOff sinceUs r)
    {call : NotificationCall κ} (client : call.client = true) :
    FailedOff sinceUs (r.notify call).1 := by
  obtain ⟨-, count, same⟩ := client_frame sound.sound.consistent client
  refine ⟨off.guarded, fun index within running => ?_⟩
  obtain ⟨current, rest⟩ := Prod.mk.inj (same index).2
  obtain ⟨-, live⟩ := Prod.mk.inj rest
  exact (congrArg available current).trans
    (off.channels index (count ▸ within) (live.symm.trans running))

theorem runtimeSound_client (sound : RuntimeSound r) {call : NotificationCall κ}
    (client : call.client = true) : RuntimeSound (r.notify call).1 := by
  obtain ⟨-, count, same⟩ := client_frame sound.sound.consistent client
  refine ⟨notificationsSound_client sound.sound client, sound.checked,
    fun index within running gone => ?_⟩
  obtain ⟨current, rest⟩ := Prod.mk.inj (same index).2
  obtain ⟨-, live⟩ := Prod.mk.inj rest
  have id : ((r.notify call).1.notifications.channels index).id =
    (r.notifications.channels index).id := (same index).1
  rw [id] at gone
  exact (congrArg available current).trans
    (sound.shown index (count ▸ within) (live.symm.trans running) gone)

end Calls

/-! ### The service -/

namespace ServiceState

variable {s : ServiceState κ} {call : ServiceCall κ}

/-- A stop is carried out. -/
def stops (s : ServiceState κ) : ServiceCall κ → Bool
  | .stop lifecycle _ => !(s.stopUnderWay || (lifecycle == .stopped && !s.providerActive))
  | _ => false

/-- A start is carried out. -/
def starts (s : ServiceState κ) : ServiceCall κ → Bool
  | .start _ => !(s.providerActive || s.stopUnderWay)
  | _ => false

/-- A report of a failure. -/
def failureReport : ServiceCall κ → Bool
  | .onDiagnostics diagnostics _ => transportRequiresFailoff diagnostics
  | _ => false

/-- A report that the runtime runs and its transport is live. -/
def liveReport : ServiceCall κ → Bool
  | .onDiagnostics diagnostics _ =>
    diagnostics.lifecycle == .running && diagnostics.transport == .live
  | _ => false

/-- A frame is processed. -/
def processes (s : ServiceState κ) : ServiceCall κ → Bool
  | .process _ _ => !s.stoppingRequested
  | _ => false

/-- A frame stamped after an instant is processed. -/
def processesLater (sinceUs : MonotonicTimestamp) (s : ServiceState κ) : ServiceCall κ → Bool
  | .process frame _ => !s.stoppingRequested && decide (sinceUs < frame.timestampUs)
  | _ => false

/-- The results of the provider's calls in one call of the service. -/
def parts (isValid : RawCanFrame → Bool) (s : ServiceState κ) :
    ServiceCall κ → List ProviderProcessResult
  | .process frame times =>
    let first := s.runtime.provider.process isValid frame times.callUs
    if s.stoppingRequested then []
    else if first.2.status = .faulted then [first.2, (first.1.fault times.faultUs).2]
    else [first.2]
  | .onDiagnostics diagnostics times =>
    let first := s.runtime.provider.service times.callUs
    if transportRequiresFailoff diagnostics && !s.faultLatched then
      [first.2, (first.1.fault times.faultUs).2]
    else [first.2]
  | .stop lifecycle times =>
    if s.stops (.stop lifecycle times) then [(s.runtime.provider.fault times.callUs).2] else []
  | _ => []

/-- The instant at which a call faults the provider. -/
def faultInstant (isValid : RawCanFrame → Bool) (s : ServiceState κ) :
    ServiceCall κ → Option MonotonicTimestamp
  | .process frame times =>
    if !s.stoppingRequested ∧
        (s.runtime.provider.process isValid frame times.callUs).2.status = .faulted then
      some times.faultUs
    else none
  | .onDiagnostics diagnostics times =>
    if transportRequiresFailoff diagnostics && !s.faultLatched then some times.faultUs else none
  | .stop lifecycle times => if s.stops (.stop lifecycle times) then some times.callUs else none
  | _ => none

/-- A result names what its parts name. -/
def NamesAll (parts : List ProviderProcessResult) (result : ProviderProcessResult) : Prop :=
  ∀ id, (id ∈ result.changed ↔ ∃ part ∈ parts, id ∈ part.changed) ∧
    (id ∈ result.due ↔ ∃ part ∈ parts, id ∈ part.due) ∧
    (id ∈ result.recovered ↔ ∃ part ∈ parts, id ∈ part.recovered)

theorem namesAll_alone (result : ProviderProcessResult) : NamesAll [result] result := by
  intro id
  simp only [List.mem_singleton, exists_eq_left, and_self]

theorem namesAll_merge {first second merged : ProviderProcessResult}
    (merges : MergesAll first second merged) : NamesAll [first, second] merged := by
  intro id
  simp only [List.mem_cons, List.not_mem_nil, or_false, exists_eq_or_imp, exists_eq_left]
  exact ⟨merges.changed id, merges.due id, merges.recovered id⟩

/-- **What one call does**: a sound service stays sound, a service that failed off stays so until
it processes a later frame, a fault fails off, and what is published names all parts. -/
structure StepSound (isValid : RawCanFrame → Bool) (s : ServiceState κ) (call : ServiceCall κ) :
    Prop where
  sound : RuntimeSound (s.step isValid call).1.runtime
  stays : ∀ sinceUs, FailedOff sinceUs s.runtime → s.processesLater sinceUs call = false →
    FailedOff sinceUs (s.step isValid call).1.runtime
  fails : ∀ atUs, s.faultInstant isValid call = some atUs →
    FailedOff atUs (s.step isValid call).1.runtime
  names : ∀ published, (s.step isValid call).2.published = some published →
    NamesAll (s.parts isValid call) published

section

variable (sound : RuntimeSound s.runtime)
include sound

/-- A call that changes nothing. -/
theorem StepSound.idle {answer : ServiceAnswer} (step : s.step isValid call = (s, answer))
    (silent : answer.published = none) (faultless : s.faultInstant isValid call = none) :
    StepSound isValid s call := by
  refine ⟨?_, fun sinceUs off _ => ?_, fun atUs fault => ?_, fun published told => ?_⟩
  · rw [step]
    exact sound
  · rw [step]
    exact off
  · rw [faultless] at fault
    cases fault
  · rw [step, silent] at told
    cases told

/-- A call that publishes one call of the provider. -/
theorem StepSound.one (provided : ProviderCall) (nowUs : MonotonicTimestamp)
    (runtime : (s.step isValid call).1.runtime =
      s.runtime.published (s.runtime.provider.step isValid provided).1
        (s.runtime.provider.step isValid provided).2 nowUs)
    (told : (s.step isValid call).2.published = (s.runtime.provider.step isValid provided).2)
    (parts : s.parts isValid call = [(s.runtime.provider.step isValid provided).2])
    (early : ∀ sinceUs, s.processesLater sinceUs call = false → ∀ frame nowUs,
      provided = .process frame nowUs → frame.timestampUs ≤ sinceUs)
    (fault : ∀ atUs, s.faultInstant isValid call = some atUs → provided = .fault atUs) :
    StepSound isValid s call := by
  refine ⟨?_, fun sinceUs off later => ?_, fun atUs faults => ?_, fun published same => ?_⟩
  · rw [runtime]
    exact runtimeSound_call sound provided nowUs
  · rw [runtime]
    exact failedOff_call sound off (early sinceUs later) nowUs
  · obtain rfl := fault atUs faults
    rw [runtime]
    have dark : Guarded atUs (s.runtime.provider.step isValid (.fault atUs)).1 :=
      guarded_fault atUs
    refine failedOff_published sound (profile_step isValid _ _) dark _ nowUs
      fun index within running bright => ?_
    obtain ⟨valid, known⟩ := known_of_channel sound.checked sound.sound.consistent within
    refine (invalid_step isValid sound.checked (.fault atUs) known
      (invalid_fault valid known atUs)).resolve_left fun before => ?_
    rw [sound.shown index within running before] at bright
    cases bright
  · rw [told] at same
    rw [parts, ← Option.some.inj same]
    exact namesAll_alone _

/-- A call that publishes a call of the provider with a fault after it. -/
theorem StepSound.two (provided : ProviderCall) (faultUs nowUs : MonotonicTimestamp)
    (runtime : (s.step isValid call).1.runtime =
      s.runtime.published ((s.runtime.provider.step isValid provided).1.fault faultUs).1
        (merge (s.runtime.provider.step isValid provided).2
          ((s.runtime.provider.step isValid provided).1.fault faultUs).2) nowUs)
    (told : (s.step isValid call).2.published = merge (s.runtime.provider.step isValid provided).2
      ((s.runtime.provider.step isValid provided).1.fault faultUs).2)
    (parts : s.parts isValid call = [(s.runtime.provider.step isValid provided).2,
      ((s.runtime.provider.step isValid provided).1.fault faultUs).2])
    (early : ∀ sinceUs, s.processesLater sinceUs call = false → ∀ frame nowUs,
      provided = .process frame nowUs → frame.timestampUs ≤ sinceUs)
    (fault : ∀ atUs, s.faultInstant isValid call = some atUs → faultUs = atUs) :
    StepSound isValid s call := by
  obtain ⟨merges, sound', fails, stays⟩ := failedOff_fault isValid sound provided faultUs nowUs
  refine ⟨?_, fun sinceUs off later => ?_, fun atUs faults => ?_, fun published same => ?_⟩
  · rw [runtime]
    exact sound'
  · rw [runtime]
    exact stays sinceUs off (early sinceUs later)
  · rw [runtime, ← fault atUs faults]
    exact fails
  · rw [told] at same
    rw [parts, ← Option.some.inj same]
    exact namesAll_merge merges

theorem stepSound_process (frame : RawCanFrame) (times : CallTimes) :
    StepSound isValid s (.process frame times) := by
  rcases stopping : s.stoppingRequested with _ | _
  swap
  · have shut : s.step isValid (.process frame times) = (s, {}) := if_pos stopping
    refine .idle sound shut rfl ?_
    exact if_neg fun faults => by simp [stopping] at faults
  have early (sinceUs : MonotonicTimestamp)
      (later : s.processesLater sinceUs (.process frame times) = false) (frame' : RawCanFrame)
      (nowUs : MonotonicTimestamp) (same : ProviderCall.process frame times.callUs =
        .process frame' nowUs) : frame'.timestampUs ≤ sinceUs := by
    cases same
    dsimp only [processesLater] at later
    rw [stopping, Bool.not_false, Bool.true_and, decide_eq_false_iff_not] at later
    exact Nat.not_lt.mp later
  generalize provided : ProviderCall.process frame times.callUs = call at early
  have first : s.runtime.provider.process isValid frame times.callUs =
      s.runtime.provider.step isValid call := by rw [← provided]; rfl
  have open_door : ¬ s.stoppingRequested = true := by rw [stopping]; decide
  by_cases faulted : (s.runtime.provider.step isValid call).2.status = .faulted
  · refine .two sound call times.faultUs times.publishUs ?_ ?_ ?_ early ?_
    · dsimp only [step, process]
      rw [if_neg open_door, first, if_pos faulted]
      rfl
    · dsimp only [step, process]
      rw [if_neg open_door, first, if_pos faulted]
    · dsimp only [parts]
      rw [if_neg open_door, first, if_pos faulted]
    · intro atUs fault
      dsimp only [faultInstant] at fault
      rw [first, if_pos ⟨by rw [stopping]; rfl, faulted⟩] at fault
      exact Option.some.inj fault
  · refine .one sound call times.publishUs ?_ ?_ ?_ early ?_
    · dsimp only [step, process]
      rw [if_neg open_door, first, if_neg faulted]
      rfl
    · dsimp only [step, process]
      rw [if_neg open_door, first, if_neg faulted]
    · dsimp only [parts]
      rw [if_neg open_door, first, if_neg faulted]
    · intro atUs fault
      dsimp only [faultInstant] at fault
      rw [first, if_neg fun faults => faulted faults.2] at fault
      cases fault

theorem stepSound_onDiagnostics (diagnostics : TransportDiagnostics) (times : CallTimes) :
    StepSound isValid s (.onDiagnostics diagnostics times) := by
  have early (sinceUs : MonotonicTimestamp)
      (later : s.processesLater sinceUs (.onDiagnostics diagnostics times) = false)
      (frame' : RawCanFrame) (nowUs : MonotonicTimestamp)
      (same : ProviderCall.service times.callUs = .process frame' nowUs) :
      frame'.timestampUs ≤ sinceUs := nomatch same
  by_cases faults : (transportRequiresFailoff diagnostics && !s.faultLatched) = true
  · have ⟨failure, open_latch⟩ := Bool.and_eq_true_iff.mp faults
    have stepped : s.step isValid (.onDiagnostics diagnostics times) = _ :=
      (if_pos failure).trans (if_pos open_latch)
    have divided : s.parts isValid (.onDiagnostics diagnostics times) = _ := if_pos faults
    exact .two sound (.service times.callUs) times.faultUs times.publishUs
      (congrArg (·.1.runtime) stepped)
      (congrArg (·.2.published) stepped) divided early fun atUs fault => by
        dsimp only [faultInstant] at fault
        rw [if_pos faults] at fault
        exact Option.some.inj fault
  · have divided : s.parts isValid (.onDiagnostics diagnostics times) = _ := if_neg faults
    have stepped : (s.step isValid (.onDiagnostics diagnostics times)).1.runtime =
        s.runtime.published (s.runtime.provider.service times.callUs).1
          (s.runtime.provider.service times.callUs).2 times.publishUs ∧
        (s.step isValid (.onDiagnostics diagnostics times)).2.published =
          some (s.runtime.provider.service times.callUs).2 := by
      dsimp only [step]
      unfold onDiagnostics
      dsimp only
      split
      · next failure =>
        split
        · next open_latch => exact absurd (by rw [failure, open_latch]; rfl) faults
        · exact ⟨rfl, rfl⟩
      · split <;> exact ⟨rfl, rfl⟩
    exact .one sound (.service times.callUs) times.publishUs stepped.1 stepped.2 divided early
      fun atUs fault => by
        dsimp only [faultInstant] at fault
        rw [if_neg faults] at fault
        cases fault

end

theorem stops_of_refused {lifecycle : RuntimeLifecycle} {times : CallTimes}
    (refused : (s.stopUnderWay || (lifecycle == .stopped && !s.providerActive)) = true) :
    ¬ s.stops (.stop lifecycle times) = true := by
  dsimp only [stops]
  rw [refused]
  decide

theorem stops_of_open {lifecycle : RuntimeLifecycle} {times : CallTimes}
    (carried : ¬ (s.stopUnderWay || (lifecycle == .stopped && !s.providerActive)) = true) :
    s.stops (.stop lifecycle times) = true := by
  dsimp only [stops]
  rw [Bool.eq_false_of_not_eq_true carried]
  rfl

theorem stepSound_stop (sound : RuntimeSound s.runtime) (lifecycle : RuntimeLifecycle)
    (times : CallTimes) : StepSound isValid s (.stop lifecycle times) := by
  by_cases refused : (s.stopUnderWay || (lifecycle == .stopped && !s.providerActive)) = true
  · have alone : s.step isValid (.stop lifecycle times) = (s, {}) := if_pos refused
    exact .idle sound alone rfl (if_neg (stops_of_refused refused))
  · have carried : s.stops (.stop lifecycle times) = true := stops_of_open refused
    have stepped : s.step isValid (.stop lifecycle times) = _ := if_neg refused
    have divided : s.parts isValid (.stop lifecycle times) = _ := if_pos carried
    exact .one sound (.fault times.callUs) times.publishUs (congrArg (·.1.runtime) stepped)
      (congrArg (·.2.published) stepped) divided (fun _ _ _ _ same => nomatch same)
      fun atUs fault => by
        dsimp only [faultInstant] at fault
        rw [if_pos carried] at fault
        rw [Option.some.inj fault]

/-- A moment of the lifecycle, which publishes nothing through a result. -/
theorem StepSound.quiet (sound : RuntimeSound (s.step isValid call).1.runtime)
    (stays : ∀ sinceUs, FailedOff sinceUs s.runtime →
      FailedOff sinceUs (s.step isValid call).1.runtime)
    (silent : (s.step isValid call).2.published = none)
    (faultless : s.faultInstant isValid call = none) : StepSound isValid s call := by
  refine ⟨sound, fun sinceUs off _ => stays sinceUs off, fun atUs fault => ?_,
    fun published told => ?_⟩
  · rw [faultless] at fault
    cases fault
  · rw [silent] at told
    cases told

theorem stepSound_start (sound : RuntimeSound s.runtime) (times : CallTimes) :
    StepSound isValid s (.start times) := by
  by_cases refused : (s.providerActive || s.stopUnderWay) = true
  · have alone : s.step isValid (.start times) = (s, {}) := by
      show (s.start times, _) = _
      rw [start, if_pos refused]
    exact .idle sound alone rfl rfl
  have started : (s.step isValid (.start times)).1.runtime =
      (((s.resetProvider times.callUs).runtime).notify (.setRunning true
        ((s.resetProvider times.callUs).runtime.readings times.publishUs))).1 := by
    show (s.start times).runtime = _
    rw [start, if_neg refused]
  have cleared : RuntimeSound (s.resetProvider times.callUs).runtime :=
    runtimeSound_of_reset (sound_reset sound.sound times.callUs) sound.checked times.callUs rfl
  refine .quiet ?_ (fun sinceUs off => ?_) rfl rfl
  · rw [started]
    exact runtimeSound_of_reset
      (@RuntimeState.sound_step _ isValid _ cleared.sound (.start times.publishUs))
      sound.checked times.callUs rfl
  · rw [started]
    exact failedOff_setRunning cleared (failedOff_reset sound.checked off times.callUs) true
      times.publishUs

theorem stepSound_stopReturned (sound : RuntimeSound s.runtime) (quiesced : Bool)
    (nowUs : MonotonicTimestamp) : StepSound isValid s (.stopReturned quiesced nowUs) := by
  have here : (s.step isValid (.stopReturned quiesced nowUs)).1 = s.stopReturned quiesced nowUs :=
    rfl
  refine .quiet ?_ (fun sinceUs off => ?_) rfl rfl <;> rw [here, stopReturned]
  · split
    · exact sound
    split
    · next quiet =>
      have stopped : (s.runtime.step isValid .stop).1.Sound :=
        RuntimeState.sound_step sound.sound .stop
      have same : (s.runtime.step isValid .stop).1 =
          (s.runtime.notify (.setRunning false (s.runtime.readings nowUs))).1 := by
        dsimp only [RuntimeState.step]
        rw [if_pos quiet.2]
        rfl
      exact runtimeSound_of_reset (sound_reset (same ▸ stopped) nowUs) sound.checked nowUs rfl
    · exact sound
  · split
    · exact off
    split
    · have stopped : FailedOff sinceUs
          (s.runtime.notify (.setRunning false (s.runtime.readings nowUs))).1 :=
        failedOff_setRunning sound off false nowUs
      exact failedOff_reset
        (r := (s.runtime.notify (.setRunning false (s.runtime.readings nowUs))).1) sound.checked
        stopped nowUs
    · exact off

theorem stepSound (sound : RuntimeSound s.runtime) (call : ServiceCall κ) :
    StepSound isValid s call := by
  cases call with
  | start times => exact stepSound_start sound times
  | process frame times => exact stepSound_process sound frame times
  | onDiagnostics diagnostics times => exact stepSound_onDiagnostics sound diagnostics times
  | stop lifecycle times => exact stepSound_stop sound lifecycle times
  | stopReturned quiesced nowUs => exact stepSound_stopReturned sound quiesced nowUs
  | reset nowUs =>
    exact .quiet (runtimeSound_of_reset (sound_reset sound.sound nowUs) sound.checked nowUs rfl)
      (fun sinceUs off => failedOff_reset sound.checked off nowUs) rfl rfl
  | client call =>
    rcases served : call.client with _ | _
    · have alone : s.step isValid (.client call) = (s, {}) := by
        cases call <;> first | rfl | cases served
      exact .idle sound alone rfl rfl
    · have here : (s.step isValid (.client call)).1.runtime = (s.runtime.notify call).1 := by
        cases call <;> first | rfl | cases served
      refine .quiet ?_ (fun sinceUs off => ?_) rfl rfl <;> rw [here]
      · exact runtimeSound_client sound served
      · exact failedOff_client sound off served

/-! ### Runs -/

/-- The calls after which the next failure is faulted: a live report, and a start. -/
def settles (s : ServiceState κ) (call : ServiceCall κ) : Bool := liveReport call || s.starts call

/-- The instant of the latest fault since the transport was live. -/
def lastFault (isValid : RawCanFrame → Bool) (moves : List (ServiceState κ × ServiceCall κ)) :
    Option MonotonicTimestamp :=
  History.latest (fun move => move.1.settles move.2 = true)
    (fun move => move.1.faultInstant isValid move.2) moves

/-- A frame was processed, and neither a live report nor a start or a stop has come since. -/
def owed (moves : List (ServiceState κ × ServiceCall κ)) : Bool :=
  Latch.on (fun move => move.1.processes move.2)
    (fun move => !(move.1.settles move.2 || move.1.stops move.2)) moves

/-- **The guarantee of the runtime**: it reports a live transport after a frame, before it reports
a failure. -/
def Acknowledged (moves : List (ServiceState κ × ServiceCall κ)) : Prop :=
  History.Lawful (fun before move => failureReport move.2 = true → owed before = false) moves

/-- A failure is not reported as live. -/
theorem not_live_of_failure {diagnostics : TransportDiagnostics}
    (failure : transportRequiresFailoff diagnostics = true) :
    (diagnostics.lifecycle == .running && diagnostics.transport == .live) = false := by
  rcases live : (diagnostics.lifecycle == .running && diagnostics.transport == .live) with _ | _
  · rfl
  · obtain ⟨running, open_bus⟩ := Bool.and_eq_true_iff.mp live
    unfold transportRequiresFailoff at failure
    rw [eq_of_beq running, eq_of_beq open_bus] at failure
    cases failure

instance (moves : List (ServiceState κ × ServiceCall κ)) : Decidable (Acknowledged moves) :=
  inferInstanceAs (Decidable (History.Lawful _ moves))

theorem latch_step (isValid : RawCanFrame → Bool) (s : ServiceState κ) (call : ServiceCall κ) :
    (s.step isValid call).1.faultLatched =
      if s.settles call then false
      else (s.faultInstant isValid call).isSome || s.faultLatched := by
  cases call with
  | start times =>
    show (s.start times).faultLatched = _
    unfold start settles liveReport starts faultInstant
    rcases (s.providerActive || s.stopUnderWay) with _ | _ <;> rfl
  | process frame times =>
    show (s.process isValid frame times).1.faultLatched =
      ((s.faultInstant isValid (.process frame times)).isSome || s.faultLatched)
    dsimp only [process, faultInstant]
    by_cases shut : s.stoppingRequested = true
    · rw [if_pos shut, if_neg fun faults => by simp [shut] at faults]
      rfl
    rw [if_neg shut]
    split
    · next faulted =>
      rw [if_pos ⟨by simpa using shut, faulted⟩]
      rfl
    · next applied =>
      rw [if_neg fun faults => applied faults.2]
      rfl
  | onDiagnostics diagnostics times =>
    have settled : s.settles (.onDiagnostics diagnostics times) =
      (diagnostics.lifecycle == .running && diagnostics.transport == .live) := Bool.or_false _
    rw [settled]
    dsimp only [step, onDiagnostics, faultInstant]
    rcases failure : transportRequiresFailoff diagnostics with _ | _
    · rw [if_neg Bool.false_ne_true]
      rcases live : (diagnostics.lifecycle == .running && diagnostics.transport == .live) with _ | _
      · rw [if_neg fun both => by simp [both.1, both.2] at live]
        rfl
      · obtain ⟨running, open_bus⟩ := Bool.and_eq_true_iff.mp live
        rw [if_pos ⟨eq_of_beq running, eq_of_beq open_bus⟩]
        rfl
    · have dead := not_live_of_failure failure
      rw [dead, if_pos rfl]
      rcases latched : s.faultLatched with _ | _ <;> simp [latched, publish]
  | stop lifecycle times =>
    show (s.stop lifecycle times).1.faultLatched =
      ((s.faultInstant isValid (.stop lifecycle times)).isSome || s.faultLatched)
    dsimp only [stop, faultInstant]
    by_cases refused : (s.stopUnderWay || (lifecycle == .stopped && !s.providerActive)) = true
    · rw [if_pos refused, if_neg (stops_of_refused refused)]
      rfl
    · rw [if_neg refused, if_pos (stops_of_open refused)]
      rfl
  | stopReturned quiesced nowUs =>
    show (s.stopReturned quiesced nowUs).faultLatched = s.faultLatched
    unfold stopReturned
    split
    · rfl
    · split <;> rfl
  | reset nowUs => rfl
  | client call => cases call <;> rfl

/-- A service agrees with its history. -/
structure Tracked (isValid : RawCanFrame → Bool) (s : ServiceState κ)
    (moves : List (ServiceState κ × ServiceCall κ)) : Prop where
  sound : RuntimeSound s.runtime
  latched : s.faultLatched = (lastFault isValid moves).isSome
  dark : owed moves = false → ∀ atUs, lastFault isValid moves = some atUs →
    FailedOff atUs s.runtime

theorem lastFault_snoc (isValid : RawCanFrame → Bool)
    (moves : List (ServiceState κ × ServiceCall κ)) (s : ServiceState κ) (call : ServiceCall κ) :
    lastFault isValid (moves ++ [(s, call)]) =
      if s.settles call = true then none
      else (s.faultInstant isValid call).or (lastFault isValid moves) :=
  History.latest_snoc _ moves (s, call)

theorem owed_snoc (moves : List (ServiceState κ × ServiceCall κ)) (s : ServiceState κ)
    (call : ServiceCall κ) : owed (moves ++ [(s, call)]) =
      if owed moves then !(s.settles call || s.stops call) else s.processes call :=
  Latch.on_snoc moves (s, call)

theorem processesLater_of_idle (sinceUs : MonotonicTimestamp)
    (idle : s.processes call = false) : s.processesLater sinceUs call = false := by
  cases call with
  | process frame times =>
    have shut : (!s.stoppingRequested) = false := idle
    show (!s.stoppingRequested && _) = false
    rw [shut]
    rfl
  | _ => rfl

/-- **One call** keeps a service in agreement with its history. -/
theorem tracked_step {moves : List (ServiceState κ × ServiceCall κ)}
    (tracked : Tracked isValid s moves) (call : ServiceCall κ) :
    Tracked isValid (s.step isValid call).1 (moves ++ [(s, call)]) := by
  have step : StepSound isValid s call := stepSound tracked.sound call
  refine ⟨step.sound, ?_, fun clear atUs last => ?_⟩
  · rw [latch_step, lastFault_snoc, tracked.latched]
    split
    · rfl
    · rw [Option.isSome_or]
  rw [lastFault_snoc] at last
  rw [owed_snoc] at clear
  split at last
  · cases last
  next unsettled =>
  rcases fault : s.faultInstant isValid call with _ | instant
  · rw [fault, Option.none_or] at last
    -- neither a report nor a stop clears what is owed here
    rcases before : owed moves with _ | _
    · rw [before] at clear
      exact step.stays atUs (tracked.dark before atUs last) (processesLater_of_idle atUs clear)
    · rw [before, if_pos rfl, Bool.eq_false_of_not_eq_true unsettled, Bool.false_or,
        Bool.not_eq_false'] at clear
      cases call with
      | stop lifecycle times =>
        have instant : s.faultInstant isValid (.stop lifecycle times) = some times.callUs :=
          if_pos clear
        rw [instant] at fault
        cases fault
      | _ => cases clear
  · rw [fault, Option.some_or] at last
    exact step.fails atUs (fault.trans last)

theorem tracked_after (isValid : RawCanFrame → Bool) (tables : ProfileTables)
    (calls : List (ServiceCall κ)) :
    Tracked isValid (Machine.after (step isValid) (.create κ tables) calls)
      (Machine.moves (step isValid) (.create κ tables) calls) := by
  have start : RuntimeSound (create κ tables).runtime := by
    refine ⟨RuntimeState.sound_create κ tables true, fun valid => ?_,
      fun index within running => ?_⟩
    · have checked : (decide (tableWellFormed tables) && true) = true := valid
      rw [Bool.and_true, decide_eq_true_iff] at checked
      exact checked
    · have rest := (RuntimeState.initial_channels κ (ProfileState.create tables true)).2 index
      have stopped : ((create κ tables).runtime.notifications.channels index).channel = {} := rest
      rw [stopped] at running
      cases running
  have fresh : Tracked isValid (create κ tables) [] :=
    ⟨start, rfl, fun _ atUs last => nomatch last⟩
  exact Machine.invariant_moves fresh (fun s moves call tracked => tracked_step tracked call) calls

/-- A service that failed off stays so while no later frame is processed. -/
theorem failedOff_after (sound : RuntimeSound s.runtime) (off : FailedOff sinceUs s.runtime)
    {calls : List (ServiceCall κ)} (early : ∀ move ∈ Machine.moves (step isValid) s calls,
      move.1.processesLater sinceUs move.2 = false) :
    FailedOff sinceUs (Machine.after (step isValid) s calls).runtime := by
  refine (Machine.keeps_along (P := fun s : ServiceState κ =>
    RuntimeSound s.runtime ∧ FailedOff sinceUs s.runtime) (fun s call kept early => ?_)
    ⟨sound, off⟩ early).2
  have stepped : StepSound isValid s call := stepSound kept.1 call
  exact ⟨stepped.sound, stepped.stays sinceUs kept.2 early⟩

theorem stopping_step (stopping : s.stoppingRequested = true) (kept : s.starts call = false) :
    (s.step isValid call).1.stoppingRequested = true := by
  cases call with
  | start times =>
    have refused : (s.providerActive || s.stopUnderWay) = true := by
      have kept : (!(s.providerActive || s.stopUnderWay)) = false := kept
      rwa [Bool.not_eq_false'] at kept
    show (s.start times).stoppingRequested = true
    rw [start, if_pos refused]
    exact stopping
  | process frame times =>
    have shut : s.process isValid frame times = (s, {}) := if_pos stopping
    show (s.process isValid frame times).1.stoppingRequested = true
    rw [shut]
    exact stopping
  | onDiagnostics diagnostics times =>
    dsimp only [step, onDiagnostics]
    split
    · split <;> exact stopping
    · split <;> exact stopping
  | stop lifecycle times =>
    dsimp only [step, stop]
    split
    · exact stopping
    · rfl
  | stopReturned quiesced nowUs =>
    dsimp only [step, stopReturned]
    split
    · exact stopping
    · split <;> exact stopping
  | reset nowUs => exact stopping
  | client call => cases call <;> exact stopping

/-- No frame is taken after a stop, up to the next start. -/
theorem stopping_after (stopping : s.stoppingRequested = true) {calls : List (ServiceCall κ)}
    (kept : ∀ move ∈ Machine.moves (step isValid) s calls, move.1.starts move.2 = false) :
    (Machine.after (step isValid) s calls).stoppingRequested = true :=
  Machine.keeps_along (P := fun s : ServiceState κ => s.stoppingRequested = true)
    (fun _ _ stopping kept => stopping_step stopping kept) stopping kept

theorem stopping_of_stops (stops : s.stops call = true) :
    (s.step isValid call).1.stoppingRequested = true := by
  cases call with
  | stop lifecycle times =>
    dsimp only [step, stop]
    split
    · next refused => exact absurd stops (stops_of_refused refused)
    · rfl
  | _ => cases stops

/-- A latch stays set until a call settles. -/
theorem latched_after (latched : s.faultLatched = true) {calls : List (ServiceCall κ)}
    (kept : ∀ move ∈ Machine.moves (step isValid) s calls, move.1.settles move.2 = false) :
    (Machine.after (step isValid) s calls).faultLatched = true := by
  refine Machine.keeps_along (P := fun s : ServiceState κ => s.faultLatched = true)
    (fun s call latched kept => ?_) latched kept
  rw [latch_step, kept, if_neg Bool.false_ne_true, latched, Bool.or_true]

/-- A report that faults the provider. -/
def reportFaults (s : ServiceState κ) : ServiceCall κ → Bool
  | .onDiagnostics diagnostics _ => transportRequiresFailoff diagnostics && !s.faultLatched
  | _ => false

theorem failure_of_reportFaults (faults : s.reportFaults call = true) :
    failureReport call = true := by
  cases call with
  | onDiagnostics diagnostics times => exact (Bool.and_eq_true_iff.mp faults).1
  | _ => cases faults

theorem not_reportFaults (latched : s.faultLatched = true) (call : ServiceCall κ) :
    s.reportFaults call = false := by
  cases call with
  | onDiagnostics diagnostics times =>
    dsimp only [reportFaults]
    rw [latched, Bool.not_true, Bool.and_false]
  | _ => rfl

/-- A report of a failure leaves the latch set. -/
theorem latched_of_failure (isValid : RawCanFrame → Bool) (s : ServiceState κ)
    (failure : failureReport call = true) :
    (s.step isValid call).1.faultLatched = true ∧ s.processes call = false := by
  cases call with
  | onDiagnostics diagnostics times =>
    refine ⟨?_, rfl⟩
    have failure : transportRequiresFailoff diagnostics = true := failure
    have settled : s.settles (.onDiagnostics diagnostics times) = false :=
      (Bool.or_false _).trans (not_live_of_failure failure)
    rw [latch_step, settled, if_neg Bool.false_ne_true]
    rcases latched : s.faultLatched with _ | _
    · have fault : s.faultInstant isValid (.onDiagnostics diagnostics times) =
        some times.faultUs := if_pos (by rw [failure, latched]; rfl)
      rw [fault]
      rfl
    · exact Bool.or_true _
  | _ => cases failure

theorem faultInstant_of_stops (isValid : RawCanFrame → Bool) (stops : s.stops call = true) :
    ∃ atUs, s.faultInstant isValid call = some atUs := by
  cases call with
  | stop lifecycle times => exact ⟨times.callUs, if_pos stops⟩
  | _ => cases stops

theorem not_settles_of_stops (stops : s.stops call = true) : ¬ s.settles call = true := by
  cases call with
  | stop lifecycle times => exact Bool.false_ne_true
  | _ => cases stops

/-- **No signal reads usable**, and no running channel shows an available reading. -/
def Dark (r : RuntimeState κ) : Prop :=
  (∀ id nowUs reading, r.provider.read id nowUs = .ok reading → ¬ usable reading) ∧
    ∀ index < r.notifications.channelCount,
      (r.notifications.channels index).channel.running = true →
        available (r.notifications.channels index).channel.current = false

theorem dark_of_failedOff {r : RuntimeState κ} (off : FailedOff sinceUs r) : Dark r :=
  ⟨fun _ _ _ read => off.guarded.not_usable read, off.channels⟩

end ServiceState

open ServiceState

/-- **The service fails off.** After a report of a failure and after a stop, nothing is usable
until a frame is processed that is stamped after the fault of this failure. No frame is taken after
a stop, one failure is faulted once, and what a call publishes names all its parts. -/
theorem profile_service_fails_off (isValid : RawCanFrame → Bool) (tables : ProfileTables)
    (calls : List (ServiceCall κ)) :
    let step := ServiceState.step isValid
    let moves := Machine.moves step (.create κ tables) calls
    (Acknowledged moves → ∀ before call after, calls = before ++ call :: after →
      let s := Machine.after step (.create κ tables) before
      (failureReport call || s.stops call) = true →
        ∃ atUs, lastFault isValid (Machine.moves step (.create κ tables) (before ++ [call])) =
            some atUs ∧
          ((∀ move ∈ Machine.moves step (step s call).1 after,
              move.1.processesLater atUs move.2 = false) →
            Dark (Machine.after step s (call :: after)).runtime)) ∧
    (∀ before call after, calls = before ++ call :: after →
      let s := Machine.after step (.create κ tables) before
      s.stops call = true →
        (∀ move ∈ Machine.moves step (step s call).1 after, move.1.starts move.2 = false) →
          ∀ frame times, step (Machine.after step s (call :: after)) (.process frame times) =
            (Machine.after step s (call :: after), {})) ∧
    (∀ before first between second after,
      calls = before ++ first :: (between ++ second :: after) →
        let s := Machine.after step (.create κ tables) before
        let s' := Machine.after step s (first :: between)
        s.reportFaults first = true → s'.reportFaults second = true →
          ∃ move ∈ Machine.moves step (step s first).1 between, move.1.settles move.2 = true) ∧
    ∀ before call after, calls = before ++ call :: after →
      let s := Machine.after step (.create κ tables) before
      ∀ published, (step s call).2.published = some published →
        NamesAll (s.parts isValid call) published := by
  intro step moves
  refine ⟨fun acknowledged before call after split => ?_, fun before call after split => ?_,
    fun before first between second after split => ?_,
    fun before call after split => ?_⟩
  · intro s demands
    have tracked : ServiceState.Tracked isValid s (Machine.moves step (.create κ tables) before) :=
      tracked_after isValid tables before
    have met := ServiceState.tracked_step tracked call
    rw [Machine.moves_snoc]
    obtain ⟨atUs, last, off⟩ : ∃ atUs, lastFault isValid
        (Machine.moves step (.create κ tables) before ++ [(s, call)]) = some atUs ∧
          FailedOff atUs (step s call).1.runtime := by
      rcases Bool.or_eq_true_iff.mp demands with failure | stops
      · obtain ⟨latched, processed⟩ := latched_of_failure isValid s failure
        obtain ⟨atUs, last⟩ := Option.isSome_iff_exists.mp (met.latched.symm.trans latched)
        refine ⟨atUs, last, met.dark ?_ atUs last⟩
        -- the runtime reported a live transport after the last frame
        have answered : owed (Machine.moves step (.create κ tables) before) = false := by
          have parted : moves = Machine.moves step (.create κ tables) before ++
              (s, call) :: Machine.moves step (step s call).1 after := by
            show Machine.moves step (.create κ tables) calls = _
            rw [split, Machine.moves_append]
            rfl
          exact acknowledged _ _ _ parted failure
        rw [owed_snoc, answered]
        exact processed
      · obtain ⟨atUs, fault⟩ := faultInstant_of_stops isValid stops
        refine ⟨atUs, ?_, (stepSound tracked.sound call).fails atUs fault⟩
        rw [lastFault_snoc, if_neg (not_settles_of_stops stops), fault, Option.some_or]
    exact ⟨atUs, last, fun early => dark_of_failedOff (failedOff_after met.sound off early)⟩
  · intro s stops kept frame times
    have stopping : (Machine.after step s (call :: after)).stoppingRequested = true :=
      stopping_after (stopping_of_stops stops) kept
    exact if_pos stopping
  · intro s s' faults again
    by_contra settled
    have kept : ∀ move ∈ Machine.moves step (step s first).1 between,
        move.1.settles move.2 = false := fun move mem =>
      Bool.eq_false_of_not_eq_true fun settles => settled ⟨move, mem, settles⟩
    have latched : s'.faultLatched = true :=
      latched_after (latched_of_failure isValid s (failure_of_reportFaults faults)).1 kept
    rw [not_reportFaults latched] at again
    cases again
  · intro s published told
    exact (stepSound (tracked_after isValid tables before).sound call).names published told

/-- A report of the runtime. -/
def reportOf (lifecycle : RuntimeLifecycle) (transport : TransportHealth) :
    TransportDiagnostics where
  lifecycle := lifecycle
  transport := transport
  hasLastFrame := false
  lastFrameUs := 0
  framesProcessed := 0
  framesIgnored := 0
  framesMalformed := 0
  processorFaults := 0
  workBudgetPauses := 0
  acquisition := ⟨0, 0, 0, 0, 0, 0, 0⟩

/-- A lamp is lit by a frame that is stamped before the second report of a failure and processed
after it: that report makes no fault. -/
theorem lit_before_second_report :
    let lit : RawCanFrame := { timestampUs := 15, identifier := 0x201, dlc := 1,
                               data := #v[1, 0, 0, 0, 0, 0, 0, 0] }
    let failure (atUs : ℕ) : ServiceCall Unit :=
      .onDiagnostics (reportOf .running .timedOut) ⟨atUs, atUs, atUs⟩
    let after : List (ServiceCall Unit) :=
      [.process lit ⟨25, 25, 25⟩, .onDiagnostics (reportOf .running .live) ⟨25, 25, 25⟩]
    let step := ServiceState.step fun _ => true
    let calls := [.start ⟨0, 0, 0⟩, failure 10] ++ failure 20 :: after
    let s := Machine.after step (.create Unit notifyingLamp) calls
    Acknowledged (Machine.moves step (.create Unit notifyingLamp) calls) ∧
      (∀ frame times, .process frame times ∈ after → frame.timestampUs ≤ 20) ∧
      ∃ reading, s.runtime.provider.read ⟨1⟩ 26 = .ok reading ∧ usable reading := by
  intro lit failure after step calls s
  refine ⟨by decide +kernel, fun frame times mem => ?_, ?_⟩
  · have alone : frame = lit := by
      rcases List.mem_cons.mp mem with same | mem
      · exact (ServiceCall.process.inj same).1
      · cases List.mem_singleton.mp mem
    rw [alone]
    decide
  · have fresh : (s.runtime.provider.read ⟨1⟩ 26).toOption.map Reading.availability =
      some Availability.fresh := by decide +kernel
    rcases read : s.runtime.provider.read ⟨1⟩ 26 with _ | reading
    · rw [read] at fresh
      cases fresh
    · rw [read] at fresh
      exact ⟨reading, rfl, .inl (Option.some.inj fresh)⟩

end AccessoryController.ProfileRuntime
