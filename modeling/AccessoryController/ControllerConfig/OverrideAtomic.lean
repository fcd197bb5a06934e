import AccessoryController.ControllerConfig.NvsConfigStore
import AccessoryController.Library.Machine

/-!
# Replacing the override is atomic

A write goes to the slot that is not active, and only then moves the marker. So wherever calls
fail or power is lost, the marker names the old slot, which is untouched, or the new one, which
holds the new text as a whole.

## Main definitions

* `Stored old m`: the map holds the override `old`, if any
* `ReadsBack m stored`: a read whose own calls succeed yields `stored`
* `StoreCall`, `reachedMap`: the maps that the store can reach

## Main results

* `readsBack_of_stored`: what is stored is read
* `triple_writeOverride`, `triple_clearOverride`: each call leaves the old or the new override
* `override_atomic`: from every map that the store can reach
-/

namespace AccessoryController.ControllerConfig

open Crash Machine Triple

/-! ### The storage calls -/

section

variable {P C : NvsMap → Prop}

section

variable (cut : ∀ m, P m → C m)
include cut

theorem triple_update {f : NvsMap → NvsMap} {Q : NvsResult → NvsMap → Prop}
    (happens : ∀ m, P m → Q kNvsOk (f m))
    (fails : ∀ (m : NvsMap) (e : NvsError), P m → Q e.code m ∧ Q e.code (f m)) :
    Triple P (update f) Q C := by
  refine operate cut fun answer m pre => ?_
  cases answer with
  | happens => exact happens m pre
  | fails error takesEffect =>
    cases takesEffect
    · exact (fails m error pre).1
    · exact (fails m error pre).2

/-- A read leaves the map alone, and reports an error or what it finds. -/
theorem triple_query {A : Type} {f : NvsMap → NvsResult × A} {nothing : A}
    {Q : NvsResult × A → NvsMap → Prop} (happens : ∀ m, P m → Q (f m) m)
    (fails : ∀ (m : NvsMap) (e : NvsError), P m → Q (e.code, nothing) m) :
    Triple P (query f nothing) Q C := by
  refine operate cut fun answer m pre => ?_
  cases answer with
  | happens => exact happens m pre
  | fails error takesEffect => exact fails m error pre

theorem triple_commit : Triple P commit (fun _ m => P m) C :=
  triple_update cut (fun _ pre => pre) fun _ _ pre => ⟨pre, pre⟩

/-- An erased key is gone when the call says so, and when it says that it was not there. -/
theorem triple_eraseKey {key : String} {Q : NvsResult → NvsMap → Prop}
    (happens : ∀ m result, P m → Q result (Function.update m key none))
    (fails : ∀ (m : NvsMap) (e : NvsError), P m → Q e.code m) : Triple P (eraseKey key) Q C := by
  refine operate cut fun answer m pre => ?_
  cases answer with
  | happens => exact happens m _ pre
  | fails error takesEffect =>
    cases takesEffect
    · exact fails m error pre
    · exact happens m _ pre

end

variable {errorName : NvsResult → String}

/-- Reading a blob leaves the map alone. -/
theorem triple_readBlob (key : String) (cut : ∀ m, P m → C m) :
    Triple P (readBlob errorName key) (fun _ m => P m) C := by
  refine bind (triple_query (Q := fun _ m => P m) cut (fun _ pre => pre)
    fun _ _ pre => pre) fun size => ?_
  refine ite (fun _ => pure fun _ pre => pre) fun _ => ?_
  refine ite (fun _ => pure fun _ pre => pre) fun _ => ?_
  refine ite (fun _ => pure fun _ pre => pre) fun _ => ?_
  refine bind (triple_query (Q := fun _ m => P m) cut (fun _ pre => pre)
    fun _ _ pre => pre) fun blob => ?_
  exact ite (fun _ => pure fun _ pre => pre) fun _ => pure fun _ pre => pre

end

/-! ### What is stored -/

/-- The slot that was active still holds the override. -/
def Kept : Option UInt8 → Option Bytes → NvsMap → Prop
  | none, none, _ => True
  | some slot, some bytes, m => slot.toNat < kSlotCount ∧ m (slotKey slot) = some (.blob bytes) ∧
      0 < bytes.length ∧ bytes.length ≤ kMaxStoredControllerConfigJsonBytes
  | _, _, _ => False

/-- The marker names the slot, and the slot holds the override. -/
def Active (slot : Option UInt8) (stored : Option Bytes) (m : NvsMap) : Prop :=
  m kActiveKey = slot.map .u8 ∧ Kept slot stored m

/-- The map holds an override, or no marker. -/
def Stored (stored : Option Bytes) (m : NvsMap) : Prop := ∃ slot, Active slot stored m

theorem slot_cases {slot : UInt8} (h : slot.toNat < kSlotCount) : slot = 0 ∨ slot = 1 := by
  have cases : slot.toNat = 0 ∨ slot.toNat = 1 := by
    unfold kSlotCount at h
    omega
  exact cases.imp (fun h => UInt8.toNat_inj.mp h) fun h => UInt8.toNat_inj.mp h

theorem slotKey_ne_active {slot : UInt8} (h : slot.toNat < kSlotCount) :
    slotKey slot ≠ kActiveKey := by
  rcases slot_cases h with rfl | rfl <;> decide

theorem targetSlot_lt (slot : Option UInt8) : (targetSlot slot).toNat < kSlotCount := by
  unfold targetSlot
  split
  · split <;> decide
  · decide

/-- A write never goes to the slot that is active. -/
theorem slotKey_target_ne {slot : UInt8} (h : slot.toNat < kSlotCount) :
    slotKey (targetSlot (some slot)) ≠ slotKey slot := by
  rcases slot_cases h with rfl | rfl <;> decide

variable {value : Option NvsValue} {m : NvsMap} {slot : Option UInt8} {stored : Option Bytes}

/-- A change of another key keeps the active slot's text. -/
theorem Kept.update {key : String} (kept : Kept slot stored m)
    (other : ∀ s, slot = some s → s.toNat < kSlotCount → slotKey s ≠ key) :
    Kept slot stored (Function.update m key value) := by
  rcases slot with _ | slot <;> rcases stored with _ | bytes <;> try exact kept
  obtain ⟨range, text, bounds⟩ := kept
  exact ⟨range, by rwa [Function.update_of_ne (other slot rfl range)], bounds⟩

/-- A change of the marker keeps the active slot's text. -/
theorem Kept.update_marker (kept : Kept slot stored m) :
    Kept slot stored (Function.update m kActiveKey value) :=
  kept.update fun _ _ range => slotKey_ne_active range

/-- A change of the target slot keeps the active slot's text. -/
theorem Kept.update_target (kept : Kept slot stored m) :
    Kept slot stored (Function.update m (slotKey (targetSlot slot)) value) := by
  refine kept.update fun s eq range => ?_
  rw [eq]
  exact (slotKey_target_ne range).symm

variable (errorName : NvsResult → String)

/-- A read whose own calls succeed yields the stored override, or that there is none. -/
def ReadsBack (m : NvsMap) (stored : Option Bytes) : Prop :=
  ∀ answers : List Answer, (∀ a ∈ answers, a = .happens) → 3 ≤ answers.length →
    (readOverride errorName m answers).1 = some
      (match stored with
        | none => {}
        | some bytes => { status := .present, value := bytes })

variable {errorName}

/-- What is stored is read, as a whole. -/
theorem readsBack_of_stored (holds : Stored stored m) : ReadsBack errorName m stored := by
  intro answers succeed enough
  match answers, enough with
  | a :: b :: c :: rest, _ =>
    obtain rfl := succeed a (by simp)
    obtain rfl := succeed b (by simp)
    obtain rfl := succeed c (by simp)
    obtain ⟨slot, marker, kept⟩ := holds
    rcases slot with _ | slot <;> rcases stored with _ | bytes
    · simp [readOverride, getU8, query, marker]
    · exact kept.elim
    · exact kept.elim
    · obtain ⟨range, text, positive, bounded⟩ := kept
      have nonempty : bytes ≠ [] := List.ne_nil_of_length_pos positive
      have fits : ¬ kMaxControllerConfigJsonBytes < bytes.length := by
        simp only [kMaxControllerConfigJsonBytes, kMaxStoredControllerConfigJsonBytes] at bounded ⊢
        omega
      have inRange : ¬ kSlotCount ≤ slot.toNat := Nat.not_le.mpr range
      simp [readOverride, readBlob, getU8, getBlobLength, getBlob, query, marker, text, nonempty,
        fits, inRange, bind_apply, kNvsOk, kNvsNotFound]

/-! ### The calls of the store -/

/-- The old override is stored, or the new one. -/
def OldOrNew (old new : Option Bytes) (m : NvsMap) : Prop := Stored old m ∨ Stored new m

section

variable {old new : Option Bytes}

/-- A call that only reads keeps what is stored. -/
theorem triple_readActiveSlot (cut : ∀ m, Stored old m → OldOrNew old new m) :
    Triple (Stored old) (readActiveSlot errorName)
      (fun active m => Stored old m ∧ (active.2 = none → Active active.1 old m) ∧
        (active.2 ≠ none → active.1 = none)) (OldOrNew old new) := by
  refine bind (R := fun active m => Stored old m ∧
      (active.1 = kNvsNotFound → m kActiveKey = none) ∧
      (active.1 = kNvsOk → m kActiveKey = some (.u8 active.2)))
    (triple_query cut (fun m holds => ?_) fun m e holds => ?_) fun active => ?_
  · refine ⟨holds, ?_⟩
    rcases hm : m kActiveKey with _ | _ | _ <;> simp [kNvsOk, kNvsNotFound, kNvsTypeMismatch]
  · exact ⟨holds, fun eq => absurd eq e.found, fun eq => absurd eq e.failed⟩
  · refine ite (fun missing => pure fun m ⟨holds, absent, _⟩ => ?_) fun _ => ?_
    · refine ⟨holds, fun _ => ?_, fun error => absurd rfl error⟩
      obtain ⟨slot, marker, kept⟩ := holds
      obtain rfl : slot = none := by
        simpa using marker.symm.trans (absent missing)
      exact ⟨marker, kept⟩
    · refine ite (fun _ => pure fun m pre => ?_) fun succeeded => ?_
      · exact ⟨pre.1, fun error => absurd error (by simp), fun _ => rfl⟩
      · refine ite (fun _ => pure fun m pre => ?_) fun _ =>
          pure fun m ⟨holds, _, found⟩ => ?_
        · exact ⟨pre.1, fun error => absurd error (by simp), fun _ => rfl⟩
        · refine ⟨holds, fun _ => ?_, fun error => absurd rfl error⟩
          obtain ⟨slot, marker, kept⟩ := holds
          obtain rfl : slot = some active.2 := by
            rcases slot with _ | slot
            · simpa using marker.symm.trans (found (not_not.mp succeeded))
            · simpa using marker.symm.trans (found (not_not.mp succeeded))
          exact ⟨marker, kept⟩

/-- The marker names the active slot or its replacement `next`, and the active slot still holds
the override. -/
def Moving (slot next : Option UInt8) (stored : Option Bytes) (m : NvsMap) : Prop :=
  (m kActiveKey = slot.map .u8 ∨ m kActiveKey = next.map .u8) ∧ Kept slot stored m

/-- Restoring the marker puts it back, or leaves it where it is. What else is known of the map
survives if it does not speak of the marker. -/
theorem triple_restoreMarker {next : Option UInt8} {F C : NvsMap → Prop}
    (frame : ∀ m value, F m → F (Function.update m kActiveKey value)) (message : String)
    (cut : ∀ m, Moving slot next stored m ∧ F m → C m) :
    Triple (fun m => Moving slot next stored m ∧ F m) (restoreMarker errorName slot message)
      (fun result m => (Moving slot next stored m ∧ F m) ∧ result.ok = false) C := by
  have restored : ∀ m, Moving slot next stored m ∧ F m →
      Moving slot next stored (Function.update m kActiveKey (slot.map .u8)) ∧
        F (Function.update m kActiveKey (slot.map .u8)) := by
    rintro m ⟨⟨-, kept⟩, framed⟩
    exact ⟨⟨Or.inl (Function.update_self ..), kept.update_marker⟩, frame m _ framed⟩
  refine bind (R := fun _ m => Moving slot next stored m ∧ F m) ?_ fun result => ?_
  · cases slot with
    | some slot =>
      exact triple_update cut (fun m pre => restored m pre) fun m _ pre => ⟨pre, restored m pre⟩
    | none =>
      refine bind (R := fun _ m => Moving none next stored m ∧ F m)
        (triple_eraseKey cut (fun m _ pre => restored m pre) fun _ _ pre => pre) fun _ => ?_
      exact pure fun _ pre => pre
  · refine ite (fun _ => pure fun m pre => ⟨pre, rfl⟩) fun _ => ?_
    refine bind (triple_commit cut) fun result => ?_
    exact ite (fun _ => pure fun m pre => ⟨pre, rfl⟩) fun _ =>
      pure fun m pre => ⟨pre, rfl⟩

end

/-! #### Writing -/

section

variable {slot : Option UInt8} {old : Option Bytes} {json : Bytes}

/-- The target slot holds the new text. -/
def Written (slot : Option UInt8) (json : Bytes) (m : NvsMap) : Prop :=
  m (slotKey (targetSlot slot)) = some (.blob json)

theorem written_update_marker (value : Option NvsValue) (written : Written slot json m) :
    Written slot json (Function.update m kActiveKey value) := by
  unfold Written
  rwa [Function.update_of_ne (slotKey_ne_active (targetSlot_lt slot))]

/-- While the marker moves, the old override is stored or the new one is. -/
theorem oldOrNew_of_moving (positive : 0 < json.length)
    (bounded : json.length ≤ kMaxStoredControllerConfigJsonBytes)
    (moving : Moving slot (some (targetSlot slot)) old m ∧ Written slot json m) :
    OldOrNew old (some json) m := by
  obtain ⟨⟨marker | marker, kept⟩, written⟩ := moving
  · exact Or.inl ⟨slot, marker, kept⟩
  · exact Or.inr ⟨some (targetSlot slot), marker, targetSlot_lt slot, written, positive, bounded⟩

/-- Moving the marker to the written slot: the old override or the new one, and the new one if
it reports success. -/
theorem triple_activateSlot (positive : 0 < json.length)
    (bounded : json.length ≤ kMaxStoredControllerConfigJsonBytes) :
    Triple (fun m => Active slot old m ∧ Written slot json m) (activateSlot errorName slot json)
      (fun result m => OldOrNew old (some json) m ∧ (result.ok = true → Stored (some json) m))
      (OldOrNew old (some json)) := by
  have cut : ∀ m, Moving slot (some (targetSlot slot)) old m ∧ Written slot json m →
      OldOrNew old (some json) m := fun m => oldOrNew_of_moving positive bounded
  -- Once the marker names the target, a failure restores it and a success leaves it.
  have restore : ∀ message, Triple
      (fun m => Moving slot (some (targetSlot slot)) old m ∧ Written slot json m)
      (restoreMarker errorName slot message)
      (fun result m => OldOrNew old (some json) m ∧ (result.ok = true → Stored (some json) m))
      (OldOrNew old (some json)) := by
    intro message
    refine (triple_restoreMarker (fun m value => written_update_marker value) message cut).weaken
      (fun _ pre => pre) ?_
    rintro result m ⟨moving, failed⟩
    exact ⟨cut m moving, fun ok => absurd ok (by simp [failed])⟩
  have moved : ∀ m, (m kActiveKey = some (.u8 (targetSlot slot)) ∧ Kept slot old m ∧
      Written slot json m) → Moving slot (some (targetSlot slot)) old m ∧ Written slot json m :=
    fun m pre => ⟨⟨Or.inr pre.1, pre.2.1⟩, pre.2.2⟩
  refine bind (R := fun result m =>
      (Moving slot (some (targetSlot slot)) old m ∧ Written slot json m) ∧
        (result = kNvsOk → m kActiveKey = some (.u8 (targetSlot slot))))
    (triple_update (fun m pre => Or.inl ⟨slot, pre.1⟩) (fun m pre => ?_)
      fun m e pre => ⟨?_, ?_⟩) fun result => ?_
  · exact ⟨⟨⟨Or.inr (Function.update_self ..), pre.1.2.update_marker⟩,
      written_update_marker _ pre.2⟩, fun _ => Function.update_self ..⟩
  · exact ⟨⟨⟨Or.inl pre.1.1, pre.1.2⟩, pre.2⟩, fun ok => absurd ok e.failed⟩
  · exact ⟨⟨⟨Or.inr (Function.update_self ..), pre.1.2.update_marker⟩,
      written_update_marker _ pre.2⟩, fun _ => Function.update_self ..⟩
  · refine ite (fun _ => pure fun m pre => ?_) fun ok => ?_
    · exact ⟨cut m pre.1, fun ok => absurd ok (by simp)⟩
    · refine weaken (P := fun m => m kActiveKey = some (.u8 (targetSlot slot)) ∧
        Kept slot old m ∧ Written slot json m) ?_
        (fun m pre => ⟨pre.2 (not_not.mp ok), pre.1.1.2, pre.1.2⟩) fun _ _ post => post
      refine bind (triple_commit fun m pre => cut m (moved m pre)) fun result => ?_
      refine ite (fun _ => (restore _).weaken moved fun _ _ post => post) fun _ => ?_
      refine bind (triple_query (Q := fun _ m => m kActiveKey = some (.u8 (targetSlot slot)) ∧
        Kept slot old m ∧ Written slot json m) (fun m pre => cut m (moved m pre))
        (fun _ pre => pre) fun _ _ pre => pre) fun verified => ?_
      refine ite (fun _ => (restore _).weaken moved fun _ _ post => post) fun _ => ?_
      refine bind (triple_readBlob _ fun m pre => cut m (moved m pre)) fun written => ?_
      refine ite (fun _ => (restore _).weaken moved fun _ _ post => post) fun _ =>
        pure fun m pre => ?_
      have new : Stored (some json) m :=
        ⟨some (targetSlot slot), pre.1, targetSlot_lt slot, pre.2.2, positive, bounded⟩
      exact ⟨Or.inr new, fun _ => new⟩

/-- A write to the slot that is not active. -/
theorem triple_replaceSlot (positive : 0 < json.length)
    (bounded : json.length ≤ kMaxStoredControllerConfigJsonBytes) :
    Triple (Active slot old) (replaceSlot errorName slot json)
      (fun result m => OldOrNew old (some json) m ∧ (result.ok = true → Stored (some json) m))
      (OldOrNew old (some json)) := by
  have cut : ∀ m, Active slot old m ∧ Written slot json m → OldOrNew old (some json) m :=
    fun m pre => Or.inl ⟨slot, pre.1⟩
  have written : ∀ m, Active slot old m →
      Active slot old (Function.update m (slotKey (targetSlot slot)) (some (.blob json))) ∧
        Written slot json (Function.update m (slotKey (targetSlot slot)) (some (.blob json))) := by
    rintro m ⟨marker, kept⟩
    refine ⟨⟨?_, kept.update_target⟩, Function.update_self ..⟩
    rwa [Function.update_of_ne (slotKey_ne_active (targetSlot_lt slot)).symm]
  refine bind (R := fun result m => Active slot old m ∧ (result = kNvsOk → Written slot json m))
    (triple_update (fun m pre => Or.inl ⟨slot, pre⟩)
      (fun m pre => ⟨(written m pre).1, fun _ => (written m pre).2⟩)
      fun m e pre => ⟨⟨pre, fun ok => absurd ok e.failed⟩,
        (written m pre).1, fun ok => absurd ok e.failed⟩) fun result => ?_
  refine ite (fun _ => pure fun m pre => ?_) fun ok => ?_
  · exact ⟨Or.inl ⟨slot, pre.1⟩, fun ok => absurd ok (by simp)⟩
  · refine weaken (P := fun m => Active slot old m ∧ Written slot json m) ?_
      (fun m pre => ⟨pre.1, pre.2 (not_not.mp ok)⟩) fun _ _ post => post
    refine bind (triple_commit cut) fun result => ?_
    refine ite (fun _ => pure fun m pre => ?_) fun _ => ?_
    · exact ⟨cut m pre, fun ok => absurd ok (by simp)⟩
    · refine bind (triple_readBlob _ cut) fun written => ?_
      refine ite (fun _ => pure fun m pre => ?_) fun _ =>
        triple_activateSlot positive bounded
      exact ⟨cut m pre, fun ok => absurd ok (by simp)⟩

/-- **A write** leaves the old override or the new one, and the new one if it reports success. -/
theorem triple_writeOverride :
    Triple (Stored old) (writeOverride errorName json)
      (fun result m => OldOrNew old (some json) m ∧ (result.ok = true → Stored (some json) m))
      (OldOrNew old (some json)) := by
  refine ite (fun _ => pure fun m holds => ?_) fun bounds => ?_
  · exact ⟨Or.inl holds, fun ok => absurd ok (by simp)⟩
  · have positive : 0 < json.length := by omega
    have bounded : json.length ≤ kMaxStoredControllerConfigJsonBytes := by omega
    refine bind (triple_readActiveSlot fun _ => Or.inl) ?_
    rintro ⟨slot | slot, error | error⟩
    · exact (triple_replaceSlot positive bounded).weaken (fun m pre => pre.2.1 rfl)
        fun _ _ post => post
    · exact pure fun m pre => ⟨Or.inl pre.1, fun ok => absurd ok (by simp)⟩
    · exact (triple_replaceSlot positive bounded).weaken (fun m pre => pre.2.1 rfl)
        fun _ _ post => post
    · -- A slot comes without an error.
      intro m answers pre
      exact absurd (pre.2.2 (by simp)) (by simp)

end

/-! #### Clearing -/

section

variable {slot : Option UInt8} {old : Option Bytes}

/-- While the marker is erased, the old override is stored or none is. -/
theorem oldOrNew_of_erasing (erasing : Moving slot none old m ∧ True) : OldOrNew old none m := by
  obtain ⟨⟨marker | marker, kept⟩, -⟩ := erasing
  · exact Or.inl ⟨slot, marker, kept⟩
  · exact Or.inr ⟨none, marker, trivial⟩

theorem triple_abandonClear (message : String) (known : Option UInt8)
    (same : known = none ∨ known = slot) :
    Triple (fun m => Moving slot none old m ∧ True) (abandonClear errorName known message)
      (fun result m => OldOrNew old none m ∧ (result.ok = true → Stored none m))
      (OldOrNew old none) := by
  have cut : ∀ m, Moving slot none old m ∧ True → OldOrNew old none m :=
    fun m => oldOrNew_of_erasing
  refine ite (fun isSome => ?_) fun _ => pure fun m pre => ?_
  · obtain rfl : known = slot := by
      rcases same with rfl | same
      · simp at isSome
      · exact same
    refine (triple_restoreMarker (fun _ _ _ => trivial) message cut).weaken (fun _ pre => pre) ?_
    rintro result m ⟨moving, failed⟩
    exact ⟨cut m moving, fun ok => absurd ok (by simp [failed])⟩
  · exact ⟨cut m pre, fun ok => absurd ok (by simp)⟩

theorem triple_eraseMarker (known : Option UInt8) (same : known = none ∨ known = slot) :
    Triple (Active slot old) (eraseMarker errorName known)
      (fun result m => OldOrNew old none m ∧ (result.ok = true → Stored none m))
      (OldOrNew old none) := by
  have cut : ∀ m, Moving slot none old m ∧ True → OldOrNew old none m :=
    fun m => oldOrNew_of_erasing
  refine bind (R := fun _ m => Moving slot none old m ∧ True)
    (triple_eraseKey (fun m pre => Or.inl ⟨slot, pre⟩)
      (fun m _ pre => ⟨⟨Or.inr (Function.update_self ..), pre.2.update_marker⟩, trivial⟩)
      fun m e pre => ⟨⟨Or.inl pre.1, pre.2⟩, trivial⟩) fun result => ?_
  refine ite (fun _ => pure fun m pre => ?_) fun _ => ?_
  · exact ⟨cut m pre, fun ok => absurd ok (by simp)⟩
  · refine bind (triple_commit cut) fun result => ?_
    refine ite (fun _ => triple_abandonClear _ known same) fun _ => ?_
    refine bind (R := fun cleared m => (Moving slot none old m ∧ True) ∧
        (cleared.1 = kNvsNotFound → m kActiveKey = none))
      (triple_query cut (fun m pre => ⟨pre, ?_⟩) fun m e pre => ⟨pre, fun eq => absurd eq e.found⟩)
      fun cleared => ?_
    · rcases hm : m kActiveKey with _ | _ | _ <;> simp [kNvsOk, kNvsNotFound, kNvsTypeMismatch]
    · refine ite (fun missing => pure fun m pre => ?_) fun _ =>
        (triple_abandonClear _ known same).weaken (fun m pre => pre.1) fun _ _ post => post
      have new : Stored none m := ⟨none, pre.2 missing, trivial⟩
      exact ⟨Or.inr new, fun _ => new⟩

/-- **A clear** leaves the old override or none, and none if it reports success. -/
theorem triple_clearOverride :
    Triple (Stored old) (clearOverride errorName)
      (fun result m => OldOrNew old none m ∧ (result.ok = true → Stored none m))
      (OldOrNew old none) := by
  refine bind (triple_readActiveSlot fun _ => Or.inl) ?_
  rintro ⟨slot | slot, error | error⟩
  · refine pure fun m pre => ?_
    obtain ⟨marker, kept⟩ := pre.2.1 rfl
    have new : Stored none m := ⟨none, marker, trivial⟩
    exact ⟨Or.inr new, fun _ => new⟩
  · -- The marker could not be read: it is erased all the same.
    rintro m answers ⟨⟨slot, active⟩, -⟩
    exact triple_eraseMarker none (Or.inl rfl) m answers active
  · exact (triple_eraseMarker (some slot) (Or.inr rfl)).weaken (fun m pre => pre.2.1 rfl)
      fun _ _ post => post
  · intro m answers pre
    exact absurd (pre.2.2 (by simp)) (by simp)

end

/-! ### Every map that the store can reach -/

/-- A call of the store. -/
inductive StoreCall
  | readOverride
  | writeOverride (canonicalJson : Bytes)
  | clearOverride
  deriving DecidableEq, Repr

variable (errorName)

/-- The map that a call leaves, and whether it reported success, unless power was lost. -/
def runCall (m : NvsMap) (call : StoreCall × List Answer) : NvsMap × Option Bool :=
  match call.1 with
  | .readOverride =>
    let ran := readOverride errorName m call.2
    (ran.2.1, ran.1.map fun result => result.status ≠ .failed)
  | .writeOverride canonicalJson =>
    let ran := writeOverride errorName canonicalJson m call.2
    (ran.2.1, ran.1.map WriteResult.ok)
  | .clearOverride =>
    let ran := clearOverride errorName m call.2
    (ran.2.1, ran.1.map WriteResult.ok)

/-- The map after some calls on an empty one, each cut or failing where its answers say so. -/
def reachedMap (calls : List (StoreCall × List Answer)) : NvsMap :=
  after (runCall errorName) (fun _ => none) calls

/-- What a call is to store, when `old` is stored before. -/
def StoreCall.next (old : Option Bytes) : StoreCall → Option Bytes
  | .readOverride => old
  | .writeOverride canonicalJson => some canonicalJson
  | .clearOverride => none

variable {errorName}

/-- Reading the override leaves the map alone. -/
theorem triple_readOverride {P : NvsMap → Prop} :
    Triple P (readOverride errorName) (fun _ m => P m) P := by
  have keep : ∀ m, P m → P m := fun _ pre => pre
  refine bind (triple_query (Q := fun _ m => P m) keep keep fun m _ => keep m) fun _ => ?_
  refine ite (fun _ => pure keep) fun _ => ?_
  refine ite (fun _ => pure keep) fun _ => ?_
  refine ite (fun _ => pure keep) fun _ => ?_
  refine bind (triple_readBlob _ keep) fun blob => ?_
  rcases blob with ⟨_ | _ | _, _, _⟩ <;> exact pure keep

variable (errorName)

/-- A call leaves the old override or the one it is to store, and the latter if it reports
success. -/
theorem stored_runCall {old : Option Bytes} (holds : Stored old m) (call : StoreCall)
    (answers : List Answer) :
    OldOrNew old (call.next old) (runCall errorName m (call, answers)).1 ∧
      ((runCall errorName m (call, answers)).2 = some true →
        Stored (call.next old) (runCall errorName m (call, answers)).1) := by
  cases call with
  | readOverride =>
    have kept : Stored old (readOverride errorName m answers).2.1 :=
      triple_readOverride.ended answers holds fun _ _ post => post
    exact ⟨Or.inl kept, fun _ => kept⟩
  | writeOverride canonicalJson =>
    refine ⟨triple_writeOverride.ended answers holds fun _ _ post => post.1, fun ok => ?_⟩
    obtain ⟨result, returned, ok⟩ := Option.map_eq_some_iff.mp ok
    exact (triple_writeOverride.returned holds returned).2 ok
  | clearOverride =>
    refine ⟨triple_clearOverride.ended answers holds fun _ _ post => post.1, fun ok => ?_⟩
    obtain ⟨result, returned, ok⟩ := Option.map_eq_some_iff.mp ok
    exact (triple_clearOverride.returned holds returned).2 ok

/-- Every map that the store can reach holds an override as a whole, or none. -/
theorem stored_reachedMap (calls : List (StoreCall × List Answer)) :
    ∃ stored, Stored stored (reachedMap errorName calls) := by
  refine invariant (P := fun m _ => ∃ stored, Stored stored m) ⟨none, none, rfl, trivial⟩ ?_ calls
  rintro m _ ⟨call, answers⟩ ⟨stored, holds⟩
  rcases (stored_runCall errorName holds call answers).1 with old | new
  · exact ⟨stored, old⟩
  · exact ⟨_, new⟩

/-- **Replacing the override is atomic**: from every map that the store can reach, whatever calls
fail and wherever power is lost, a call leaves a map from which the override stored before is
read, or the one that the call was to store; and the latter if the call reported success. -/
theorem override_atomic (calls : List (StoreCall × List Answer)) (call : StoreCall)
    (answers : List Answer) :
    ∃ old, ReadsBack errorName (reachedMap errorName calls) old ∧
      (ReadsBack errorName (reachedMap errorName (calls ++ [(call, answers)])) old ∨
        ReadsBack errorName (reachedMap errorName (calls ++ [(call, answers)])) (call.next old)) ∧
      ((runCall errorName (reachedMap errorName calls) (call, answers)).2 = some true →
        ReadsBack errorName (reachedMap errorName (calls ++ [(call, answers)])) (call.next old)) := by
  obtain ⟨old, holds⟩ := stored_reachedMap errorName calls
  obtain ⟨oldOrNew, succeeded⟩ := stored_runCall errorName holds call answers
  have step : reachedMap errorName (calls ++ [(call, answers)]) =
      (runCall errorName (reachedMap errorName calls) (call, answers)).1 := after_snoc ..
  rw [step]
  refine ⟨old, readsBack_of_stored holds, ?_, fun ok => readsBack_of_stored (succeeded ok)⟩
  rcases oldOrNew with old | new
  · exact Or.inl (readsBack_of_stored old)
  · exact Or.inr (readsBack_of_stored new)

/-- A first write whose calls all happen is read back. -/
theorem override_atomic_first_write :
    ReadsBack (fun _ => "") (reachedMap (fun _ => "")
      [(.writeOverride [0x7B, 0x7D], List.replicate 10 .happens)]) (some [0x7B, 0x7D]) := by
  obtain ⟨old, -, -, written⟩ := override_atomic (fun _ => "") [] (.writeOverride [0x7B, 0x7D])
    (List.replicate 10 .happens)
  exact written rfl

end AccessoryController.ControllerConfig
