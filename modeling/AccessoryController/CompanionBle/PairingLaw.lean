import AccessoryController.CompanionBle.LinkAccess
import AccessoryController.CompanionBle.StoreGuard

/-!
# Pairing only inside the window

Whatever the order of key samples, timers, syncs, connection events and record writes, a record
of a pairing reaches the store, and an old bond makes room for a pairing, only while the window is
open. The window of the code is the one of the history: the latest debounced press is less than
one period ago, and no new bond was accepted since. The host may replace the guard in its slot;
a handler of this module runs before the next pairing writes.

## Main definitions

* `WindowOpen h now`: the history left the window open
* `SecurityAct.NeedsWindow`: a pairing's record reaches the store, or a bond gives way to a pairing
* `Ordered`, `Guarded`: the clock does not go back, and a handler runs before a pairing writes

## Main results

* `window_step`: what an input may do to the window
* `needsWindow_step`: what needs the window happens inside it, or bypasses the guard
* `pairing_only_inside_window`: the law of every run
-/

namespace AccessoryController.CompanionBle

open CompanionProtocol Machine History

/-! ### The law -/

/-- An input of the host task, with what its handler did. -/
abbrev SecurityEntry := SecurityInput × List SecurityAct

/-- A new bond was accepted. -/
def AcceptsBond (entry : SecurityEntry) : Prop :=
  .link (.verdict .newBondAccepted) ∈ entry.2

instance : DecidablePred AcceptsBond := fun _ => inferInstanceAs (Decidable (_ ∈ _))

/-- The time of a debounced press. -/
def pressedAt (entry : SecurityEntry) : Option PairingClock :=
  if .pressed ∈ entry.2 then some entry.1.first else none

/-- The latest press is less than one period ago, and no new bond was accepted since. -/
def WindowOpen (h : List SecurityEntry) (now : PairingClock) : Prop :=
  ∃ press, latest AcceptsBond pressedAt h = some press ∧ now < press + kPairingWindowPeriod

/-- A record of a pairing reaches the store, or an old bond gives way to a pairing. -/
def SecurityAct.NeedsWindow (act : SecurityAct) : Prop :=
  (∃ hook record stored, act = .reached hook record stored ∧ record.isBondRecord = true) ∨
    (∃ peer, act = .evicted peer) ∨ ∃ peer, act = .deletedOldBond peer

/-- When the handler decides on what needs the window. -/
def SecurityInput.decidedAt (i : SecurityInput) : PairingClock :=
  if i.event.isGap then i.second else i.first

/-- The clock does not go back. -/
structure Ordered (inputs : List SecurityInput) : Prop where
  within : ∀ i ∈ inputs, i.first ≤ i.second
  between : inputs.Pairwise fun i j => i.second ≤ j.first

/-- A handler that installs the guard: of a sync or of a connection event. -/
def SecurityInput.installs (i : SecurityInput) : Prop :=
  i.event.isGap = true ∨ ∃ slot, i.event = .synced slot

/-- The handler leaves another function in the slot. The one of a sync or of a full store installs
the guard after that. -/
def SecurityInput.replaces (i : SecurityInput) : Prop :=
  i.replaced.isSome = true ∧ (∀ slot, i.event ≠ .synced slot) ∧
    ∀ evicted, i.event ≠ .storeStatus evicted

/-- After a replacement a handler installs the guard. -/
def Installed (inputs : List SecurityInput) : Prop :=
  Since SecurityInput.replaces (fun later => ∃ i ∈ later, i.installs) inputs

/-- A handler runs before a pairing writes. -/
def Guarded (inputs : List SecurityInput) : Prop :=
  Lawful (fun before i => ∀ record stored, i.event = .storeWrite record stored →
    record.isBondRecord = true → Installed before) inputs

variable {s' : SecurityState} {i : SecurityInput} {act : SecurityAct} {record : StoreRecord}
  {now : PairingClock} {peer : Peer} (link : LinkState) (inputs : List SecurityInput)

namespace SecurityState

variable {s : SecurityState}

/-! ### The parts of the handlers -/

/-- The guard is the one of this module, and does not forward to itself. -/
def Forwards (s : SecurityState) : Prop :=
  s.storeGuard.guard = .guarded ∧ s.storeGuard.original ≠ some .guarded

/-- The slot holds the guard or nothing. -/
def Held (s : SecurityState) : Prop := s.slot = some .guarded ∨ s.slot = none

/-- The guard stays the guard, and a slot that holds it keeps holding it. -/
structure Keeps (s s' : SecurityState) : Prop where
  forwards : s.Forwards → s'.Forwards
  held : s.Forwards → s.Held → s'.Held

theorem Keeps.trans {s'' : SecurityState} (first : Keeps s s') (second : Keeps s' s'') :
    Keeps s s'' :=
  ⟨fun forwards => second.forwards (first.forwards forwards),
    fun forwards held => second.held (first.forwards forwards) (first.held forwards held)⟩

/-- Whatever leaves the guard and the slot alone keeps them. -/
theorem keeps_of_eq (storeGuard : s'.storeGuard = s.storeGuard) (slot : s'.slot = s.slot) :
    Keeps s s' := by
  refine ⟨fun forwards => ?_, fun _ held => ?_⟩
  · unfold Forwards
    rwa [storeGuard]
  · unfold Held
    rwa [slot]

theorem forwards_ensureStoreGuard (forwards : s.Forwards) : s.ensureStoreGuard.1.Forwards := by
  have kept := HookGuard.forwards_ensure (g := s.storeGuard) (by rw [forwards.1]; exact forwards.2)
    s.slot
  exact ⟨kept.1.trans forwards.1, forwards.1 ▸ kept.2⟩

theorem held_ensureStoreGuard (forwards : s.Forwards) : s.ensureStoreGuard.1.Held := by
  have held := HookGuard.slot_ensure s.storeGuard s.slot
  rwa [forwards.1] at held

theorem keeps_ensureStoreGuard (s : SecurityState) : Keeps s s.ensureStoreGuard.1 :=
  ⟨forwards_ensureStoreGuard, fun forwards _ => held_ensureStoreGuard forwards⟩

/-- What the window's application may do. -/
structure Applied (s s' : SecurityState) : Prop where
  link : s'.link = s.link
  bonds : s'.bonds = s.bonds
  window : s'.window = s.window ∨ s'.window = s.window.close
  keeps : Keeps s s'

theorem applied (s : SecurityState) (now : PairingClock) : Applied s (s.applyWindowState now) := by
  unfold applyWindowState
  split
  · split
    · exact ⟨rfl, rfl, Or.inl rfl, (keeps_ensureStoreGuard s).trans (keeps_of_eq rfl rfl)⟩
    · exact ⟨rfl, rfl, Or.inr rfl, (keeps_ensureStoreGuard s).trans (keeps_of_eq rfl rfl)⟩
  · exact ⟨rfl, rfl, Or.inr rfl, keeps_of_eq rfl rfl⟩

/-- What the body of a connection handler does apart from the link: it keeps the guard, may close
the window, and adds no bond. -/
structure Beside (s s' : SecurityState) : Prop where
  storeGuard : s'.storeGuard = s.storeGuard
  slot : s'.slot = s.slot
  window : s'.window = s.window ∨ s'.window = s.window.close
  bonds : ∀ peer ∈ s'.bonds, peer ∈ s.bonds

@[simp] theorem link_deletePeer (s : SecurityState) (peer : Peer) (deleted : Bool) :
    (s.deletePeer peer deleted).link = s.link := by
  unfold deletePeer
  split <;> rfl

@[simp] theorem link_deleteRefused (s : SecurityState) :
    s.deleteRefusedPeerRecords.1.link = s.link := by
  unfold deleteRefusedPeerRecords
  split <;> rfl

theorem beside_link (s : SecurityState) (link : LinkState) : Beside s { s with link } :=
  ⟨rfl, rfl, Or.inl rfl, fun _ h => h⟩

theorem beside_deletePeer (s : SecurityState) (peer : Peer) (deleted : Bool) :
    Beside s (s.deletePeer peer deleted) := by
  unfold deletePeer
  split
  · exact ⟨rfl, rfl, Or.inl rfl, fun _ h => List.mem_of_mem_filter h⟩
  · exact ⟨rfl, rfl, Or.inl rfl, fun _ h => h⟩

theorem beside_deleteRefused (s : SecurityState) : Beside s s.deleteRefusedPeerRecords.1 := by
  unfold deleteRefusedPeerRecords
  split <;> exact ⟨rfl, rfl, Or.inl rfl, fun _ h => h⟩

theorem Beside.trans {s'' : SecurityState} (first : Beside s s') (second : Beside s' s'') :
    Beside s s'' := by
  refine ⟨second.storeGuard.trans first.storeGuard, second.slot.trans first.slot, ?_,
    fun peer h => first.bonds peer (second.bonds peer h)⟩
  rcases first.window with same | closed <;> rcases second.window with same' | closed'
  · exact Or.inl (same'.trans same)
  · exact Or.inr (by rw [closed', same])
  · exact Or.inr (by rw [same', closed])
  · exact Or.inr (by rw [closed', closed]; rfl)

/-- **The body of a connection handler** keeps the guard. -/
theorem beside_handleGap (s : SecurityState) (event : SecurityEvent) (now : PairingClock) :
    Beside s (s.handleGap event now).1 := by
  cases event with
  | connect status connection found =>
    dsimp only [handleGap, handleConnect]
    split
    · exact beside_link s s.link
    · exact (beside_deleteRefused s).trans (beside_link _ _)
  | disconnect connection =>
    exact (beside_deleteRefused s).trans (beside_link _ _)
  | encryptionChange connection status found deleted =>
    dsimp only [handleGap, handleEncryptionChange]
    split
    · -- the window is closed, so that its application touches nothing else
      exact ⟨rfl, rfl, Or.inr rfl, fun _ h => h⟩
    · exact beside_link _ _
    · cases found with
      | some conn =>
        exact ((beside_link _ _).trans (beside_deletePeer _ _ _)).trans (beside_deleteRefused _)
      | none => exact (beside_link _ _).trans (beside_deleteRefused _)
    · exact (beside_link _ _).trans (beside_deleteRefused _)
    · exact beside_link _ _
  | repeatPairing connection found deleted =>
    dsimp only [handleGap, handleRepeatPairing]
    split
    · exact (beside_link _ _).trans (beside_deletePeer _ _ _)
    · exact beside_link _ _
  | pairingComplete => exact beside_link _ _
  | authorize => exact beside_link _ _
  | _ => exact beside_link s s.link

/-! ### One input -/

/-- A connection handler installs the guard and applies the window before its body runs. -/
theorem keeps_gap (s : SecurityState) (event : SecurityEvent) (first second : PairingClock) :
    Keeps s ((s.ensureStoreGuard.1.applyWindowState first).handleGap event second).1 := by
  have body := beside_handleGap (s.ensureStoreGuard.1.applyWindowState first) event second
  exact ((keeps_ensureStoreGuard s).trans (applied _ first).keeps).trans
    (keeps_of_eq body.storeGuard body.slot)

/-- A write leaves the guard, the slot and the window alone. -/
theorem storeWrite_same (s : SecurityState) (record : StoreRecord) (stored : Bool)
    (now : PairingClock) :
    (s.storeWrite record stored now).1.storeGuard = s.storeGuard ∧
      (s.storeWrite record stored now).1.slot = s.slot ∧
      (s.storeWrite record stored now).1.window = s.window := by
  have recorded : ∀ record, (s.recorded record).storeGuard = s.storeGuard ∧
      (s.recorded record).slot = s.slot ∧ (s.recorded record).window = s.window := by
    intro record
    unfold SecurityState.recorded
    split <;> exact ⟨rfl, rfl, rfl⟩
  unfold storeWrite
  split
  · exact ⟨rfl, rfl, rfl⟩
  · unfold guardedStoreWrite
    split
    · exact ⟨rfl, rfl, rfl⟩
    dsimp only
    split
    · split
      · exact recorded record
      · exact ⟨rfl, rfl, rfl⟩
    split
    · exact ⟨rfl, rfl, rfl⟩
    · split
      · exact recorded record
      · exact ⟨rfl, rfl, rfl⟩
  · dsimp only
    split
    · exact recorded record
    · exact ⟨rfl, rfl, rfl⟩

theorem keeps_userKey (s : SecurityState) (level : UserKeyLevel) (first second : PairingClock) :
    Keeps s (s.onUserKeyTimer level first second).1 := by
  have sampled : Keeps s { s with debouncer := (s.debouncer.sample level).1 } :=
    keeps_of_eq rfl rfl
  unfold onUserKeyTimer
  dsimp only
  split
  · exact sampled
  split
  · exact sampled.trans (keeps_ensureStoreGuard _)
  · split
    · refine Keeps.trans ?_ (applied _ second).keeps
      exact (sampled.trans (keeps_ensureStoreGuard _)).trans (keeps_of_eq rfl rfl)
    · exact (sampled.trans (keeps_ensureStoreGuard _)).trans (keeps_of_eq rfl rfl)

theorem keeps_handle (s : SecurityState) (i : SecurityInput) : Keeps s (s.handle i).1 := by
  unfold handle
  cases i.event with
  | userKey level => exact keeps_userKey s level i.first i.second
  | windowTimer => exact (applied s i.first).keeps
  | storeWrite record stored =>
    have same := storeWrite_same s record stored i.first
    exact keeps_of_eq same.1 same.2.1
  | dropTimer | disconnectTimer | clearBonds | protectedAccess | disconnectAfterResponse =>
    exact keeps_of_eq rfl rfl
  | _ => exact keeps_gap s _ i.first i.second

/-- The slot that a handler finds may be left with another function. -/
theorem forwards_replaceSlot (forwards : s.Forwards) (replaced : Option (Option StoreHook)) :
    (s.replaceSlot replaced).Forwards := by
  cases replaced <;> exact forwards

/-- **Every input** leaves the guard without itself to forward to. -/
theorem forwards_step (forwards : s.Forwards) (i : SecurityInput) : (s.step i).1.Forwards := by
  unfold step
  cases i.event with
  | synced slot =>
    refine (applied _ i.first).keeps.forwards (forwards_ensureStoreGuard ?_)
    exact forwards
  | storeStatus evicted =>
    dsimp only [onStoreStatus]
    split
    · exact forwards
    · refine forwards_ensureStoreGuard (forwards_replaceSlot ?_ _)
      exact forwards
  | _ => exact forwards_replaceSlot ((keeps_handle s i).forwards forwards) i.replaced

/-- An input that replaces nothing keeps the guard in its slot, and a handler that installs it
puts it there. -/
theorem held_step (forwards : s.Forwards) (kept : ¬ i.replaces) (held : s.Held ∨ i.installs) :
    (s.step i).1.Held := by
  by_cases synced : ∃ slot, i.event = .synced slot
  · obtain ⟨slot, hevent⟩ := synced
    unfold step
    rw [hevent]
    have guarded : ({ s with slot } : SecurityState).Forwards := forwards
    exact (applied _ i.first).keeps.held (forwards_ensureStoreGuard guarded)
      (held_ensureStoreGuard guarded)
  by_cases status : ∃ evicted, i.event = .storeStatus evicted
  · obtain ⟨evicted, hevent⟩ := status
    unfold step
    rw [hevent]
    dsimp only [onStoreStatus]
    split
    · refine held.resolve_right ?_
      rintro (gap | ⟨slot, hslot⟩)
      · rw [hevent] at gap
        cases gap
      · exact synced ⟨slot, hslot⟩
    · refine held_ensureStoreGuard (forwards_replaceSlot ?_ _)
      exact forwards
  -- the others leave the slot alone after their body
  have unreplaced : i.replaced = none := by
    by_contra replaced
    refine kept ⟨Option.isSome_iff_ne_none.mpr replaced, fun slot h => synced ⟨slot, h⟩,
      fun evicted h => status ⟨evicted, h⟩⟩
  have handled : (s.handle i).1.Held := by
    rcases held with held | gap | sync
    · exact (keeps_handle s i).held forwards held
    · have body := fun event => beside_handleGap (s.ensureStoreGuard.1.applyWindowState i.first)
        event i.second
      have installed := (applied s.ensureStoreGuard.1 i.first).keeps.held
        (forwards_ensureStoreGuard forwards) (held_ensureStoreGuard forwards)
      have gapHeld : ∀ event, ((s.ensureStoreGuard.1.applyWindowState i.first).handleGap event
          i.second).1.Held := by
        intro event
        unfold Held
        rw [(body event).slot]
        exact installed
      unfold handle
      cases hevent : i.event with
      | connect | disconnect | encryptionChange | pairingComplete | repeatPairing | authorize
        | otherGap => exact gapHeld _
      | _ =>
        rw [hevent] at gap
        cases gap
    · exact absurd sync synced
  have step_eq : (s.step i).1 = (s.handle i).1.replaceSlot i.replaced := by
    unfold step
    cases hevent : i.event with
    | synced slot => exact absurd ⟨slot, hevent⟩ synced
    | storeStatus evicted => exact absurd ⟨evicted, hevent⟩ status
    | _ => rfl
  rw [step_eq, unreplaced]
  exact handled

/-! ### The window -/

/-- What an input may do to the window: it closes it, or leaves it alone without a new bond, or a
press opens it. -/
structure WindowStep (s s' : SecurityState) (i : SecurityInput) (acts : List SecurityAct) :
    Prop where
  storage : s'.window.storage = s.window.storage
  closesAt : s'.window.closesAt = none ∨
    (s'.window.closesAt = s.window.closesAt ∧ ¬ AcceptsBond (i, acts)) ∨
    (s'.window.closesAt = some (i.first + kPairingWindowPeriod) ∧
      s.window.storage = .available ∧ .pressed ∈ acts ∧ ¬ AcceptsBond (i, acts))

theorem windowStep_of_same {acts : List SecurityAct}
    (window : s'.window = s.window ∨ s'.window = s.window.close)
    (accepts : AcceptsBond (i, acts) → s'.window = s.window.close) : WindowStep s s' i acts := by
  rcases window with same | closed
  · refine ⟨by rw [same], ?_⟩
    by_cases accepted : AcceptsBond (i, acts)
    · exact Or.inl (by rw [accepts accepted]; rfl)
    · exact Or.inr (Or.inl ⟨by rw [same], accepted⟩)
  · exact ⟨by rw [closed]; rfl, Or.inl (by rw [closed]; rfl)⟩

theorem acts_deleteRefused (h : act ∈ s.deleteRefusedPeerRecords.2) :
    ∃ resolvable, act = .deletedRefusedRecord resolvable := by
  unfold deleteRefusedPeerRecords at h
  split at h
  · cases h
  · exact ⟨_, List.mem_singleton.mp h⟩

theorem connect_not_verdict (status : ℤ) (connection : ConnHandle)
    (description : Option ConnDescription) (now : PairingClock) (verdict : EncryptionVerdict) :
    (link.handleConnect status connection description now).2 ≠ .verdict verdict := by
  unfold LinkState.handleConnect
  repeat' split
  all_goals simp

theorem repeatPairing_not_verdict (connection : ConnHandle) (description : Option ConnDescription)
    (action : RepeatPairingAction) (now : PairingClock) (verdict : EncryptionVerdict) :
    (link.handleRepeatPairing connection description action now).2 ≠ .verdict verdict := by
  unfold LinkState.handleRepeatPairing
  split <;> simp

theorem authorize_not_verdict (connection : ConnHandle) (verdict : EncryptionVerdict) :
    (link.handleAuthorize connection).2 ≠ .verdict verdict := by
  unfold LinkState.handleAuthorize
  split <;> simp

/-- The body of a connection handler that accepts a new bond closes the window. -/
theorem closed_of_accepts (s : SecurityState) (event : SecurityEvent) (now : PairingClock)
    (accepts : .link (.verdict .newBondAccepted) ∈ (s.handleGap event now).2) :
    (s.handleGap event now).1.window = s.window.close := by
  cases event with
  | connect status connection found =>
    dsimp only [handleGap, handleConnect] at accepts
    split at accepts
    · cases accepts
    rcases List.mem_append.mp accepts with refused | connected
    · obtain ⟨resolvable, h⟩ := acts_deleteRefused refused
      cases h
    · have answer := SecurityAct.link.inj (List.mem_singleton.mp connected)
      exact absurd answer.symm (connect_not_verdict _ _ _ _ _ _)
  | disconnect connection =>
    obtain ⟨resolvable, h⟩ := acts_deleteRefused accepts
    cases h
  | encryptionChange connection status found deleted =>
    dsimp only [handleGap, handleEncryptionChange] at accepts ⊢
    have notRefused : ∀ {s : SecurityState},
        .link (.verdict .newBondAccepted) ∉ s.deleteRefusedPeerRecords.2 := fun h => by
      obtain ⟨resolvable, h⟩ := acts_deleteRefused h
      cases h
    split at accepts
    · rename_i hanswer
      rw [hanswer]
      rfl
    · simp_all
    · cases found with
      | some conn => simp_all
      | none => simp_all
    · simp_all
    · cases accepts
  | pairingComplete => cases accepts
  | repeatPairing connection found deleted =>
    dsimp only [handleGap, handleRepeatPairing] at accepts
    split at accepts
    · simp only [List.mem_cons, reduceCtorEq, SecurityAct.link.injEq, List.not_mem_nil, or_false,
        false_or] at accepts
      exact absurd accepts.symm (repeatPairing_not_verdict _ _ _ _ _ _)
    · have answer := SecurityAct.link.inj (List.mem_singleton.mp accepts)
      exact absurd answer.symm (repeatPairing_not_verdict _ _ _ _ _ _)
  | authorize connection =>
    have answer := SecurityAct.link.inj (List.mem_singleton.mp accepts)
    exact absurd answer.symm (authorize_not_verdict _ _ _)
  | _ => cases accepts

/-- Closing a window again changes nothing. -/
theorem close_close (window : PairingWindow) : window.close.close = window.close := rfl

theorem windowStep_gap (s : SecurityState) (event : SecurityEvent) (i : SecurityInput) :
    WindowStep s ((s.ensureStoreGuard.1.applyWindowState i.first).handleGap event i.second).1 i
      ((s.ensureStoreGuard.1.applyWindowState i.first).handleGap event i.second).2 := by
  have before : (s.ensureStoreGuard.1.applyWindowState i.first).window = s.window ∨
      (s.ensureStoreGuard.1.applyWindowState i.first).window = s.window.close :=
    (applied s.ensureStoreGuard.1 i.first).window
  have body := beside_handleGap (s.ensureStoreGuard.1.applyWindowState i.first) event i.second
  refine windowStep_of_same ?_ fun accepts => ?_
  · rcases body.window with same | closed
    · rw [same]
      exact before
    · rw [closed]
      refine Or.inr ?_
      rcases before with same | closed
      · rw [same]
      · rw [closed, close_close]
  · rw [closed_of_accepts _ event i.second accepts]
    rcases before with same | closed
    · rw [same]
    · rw [closed, close_close]

theorem windowStep_userKey (s : SecurityState) (level : UserKeyLevel) (i : SecurityInput) :
    WindowStep s (s.onUserKeyTimer level i.first i.second).1 i
      (s.onUserKeyTimer level i.first i.second).2 := by
  have unaccepted : ∀ acts : List SecurityAct, (acts = [] ∨ acts = [.pressed]) →
      ¬ AcceptsBond (i, acts) := by
    rintro acts (rfl | rfl) accepts
    · cases accepts
    · exact absurd (List.mem_singleton.mp accepts) (by simp)
  unfold onUserKeyTimer
  dsimp only
  split
  · exact windowStep_of_same (Or.inl rfl) fun h => absurd h (unaccepted _ (Or.inl rfl))
  split
  · exact windowStep_of_same (Or.inl rfl) fun h => absurd h (unaccepted _ (Or.inr rfl))
  · generalize hensured :
      ({ s with debouncer := (s.debouncer.sample level).1 } : SecurityState).ensureStoreGuard.1 = t
    have same : t.window = s.window := by rw [← hensured]; rfl
    have pressed := unaccepted [.pressed] (Or.inr rfl)
    by_cases available : s.window.storage = .available
    · have opened : t.window.open i.first =
          (⟨s.window.storage, some (i.first + kPairingWindowPeriod)⟩, true) := by
        unfold PairingWindow.open
        rw [same, if_neg (not_not_intro available)]
      rw [opened]
      rw [if_pos rfl]
      refine ⟨?_, ?_⟩
      · rcases (applied _ i.second).window with kept | closed
        · rw [kept]
        · rw [closed]
          rfl
      · rcases (applied _ i.second).window with kept | closed
        · rw [kept]
          exact Or.inr (Or.inr ⟨rfl, available, List.mem_singleton_self _, pressed⟩)
        · rw [closed]
          exact Or.inl rfl
    · -- this boot can store no bonds
      have unopened : t.window.open i.first = (s.window, false) := by
        unfold PairingWindow.open
        rw [same, if_pos available]
      rw [unopened]
      exact windowStep_of_same (Or.inl rfl) fun h => absurd h pressed

/-- A write tells nothing about the link. -/
theorem acts_storeWrite {stored : Bool} (h : act ∈ (s.storeWrite record stored now).2) :
    act = .refused record ∨ (∃ hook, act = .reached hook record stored) := by
  unfold storeWrite at h
  split at h
  · cases h
  · unfold guardedStoreWrite at h
    split at h
    · exact Or.inl (List.mem_singleton.mp h)
    dsimp only at h
    split at h
    · exact Or.inr ⟨_, List.mem_singleton.mp h⟩
    split at h
    · exact Or.inl (List.mem_singleton.mp h)
    · exact Or.inr ⟨_, List.mem_singleton.mp h⟩
  · exact Or.inr ⟨_, List.mem_singleton.mp h⟩

theorem window_replaceSlot (s : SecurityState) (replaced : Option (Option StoreHook)) :
    (s.replaceSlot replaced).window = s.window := by
  cases replaced <;> rfl

theorem windowStep_handle (s : SecurityState) (i : SecurityInput) :
    WindowStep s (s.handle i).1 i (s.handle i).2 := by
  unfold handle
  cases i.event with
  | userKey level => exact windowStep_userKey s level i
  | windowTimer =>
    exact windowStep_of_same (applied s i.first).window fun h => absurd h List.not_mem_nil
  | dropTimer | disconnectAfterResponse =>
    exact windowStep_of_same (Or.inl rfl) fun h => absurd h List.not_mem_nil
  | disconnectTimer =>
    refine windowStep_of_same (Or.inl rfl) fun h => absurd (List.mem_singleton.mp h) ?_
    dsimp only [LinkState.onDisconnectTimer]
    split <;> simp
  | clearBonds | protectedAccess =>
    exact windowStep_of_same (Or.inl rfl) fun h => absurd (List.mem_singleton.mp h) (by simp)
  | storeWrite record stored =>
    refine windowStep_of_same (Or.inl (storeWrite_same s record stored i.first).2.2) fun h => ?_
    rcases acts_storeWrite h with h | ⟨hook, h⟩ <;> cases h
  | _ => exact windowStep_gap s _ i

/-- **Every input** closes the window, leaves it alone or is a press. -/
theorem window_step (s : SecurityState) (i : SecurityInput) :
    WindowStep s (s.step i).1 i (s.step i).2 := by
  unfold step
  cases hevent : i.event with
  | synced slot =>
    exact windowStep_of_same (applied _ i.first).window fun h => absurd h List.not_mem_nil
  | storeStatus evicted =>
    dsimp only [onStoreStatus]
    split
    · exact windowStep_of_same (Or.inl rfl) fun h => absurd h List.not_mem_nil
    · refine windowStep_of_same (Or.inl ?_) fun h => absurd (List.mem_singleton.mp h) (by simp)
      exact window_replaceSlot _ i.replaced
  | _ =>
    have handled := windowStep_handle s i
    exact ⟨by rw [window_replaceSlot]; exact handled.storage,
      by rw [window_replaceSlot]; exact handled.closesAt⟩

/-! ### What needs the window -/

/-- A window that is open after its application was open before it. -/
theorem isOpen_of_applied (window : s'.window = s.window ∨ s'.window = s.window.close)
    (opened : s'.window.isOpen now = true) : s.window.isOpen now = true := by
  rcases window with same | closed
  · rwa [← same]
  · rw [closed] at opened
    cases opened

theorem needsWindow_kind : act.NeedsWindow →
    match act with
    | .reached _ record _ => record.isBondRecord = true
    | .evicted _ | .deletedOldBond _ => True
    | _ => False := by
  rintro (⟨hook, record, stored, rfl, bond⟩ | ⟨peer, rfl⟩ | ⟨peer, rfl⟩)
  · exact bond
  all_goals trivial

/-- What a connection handler needs the window for is an old bond that goes. -/
theorem needsWindow_gap {event : SecurityEvent} (h : act ∈ (s.handleGap event now).2)
    (needs : act.NeedsWindow) :
    s.window.isOpen now = true ∧ ∃ peer, act = .deletedOldBond peer := by
  have refusedRecord : ∀ {s : SecurityState}, act ∉ s.deleteRefusedPeerRecords.2 := by
    intro s h
    obtain ⟨resolvable, rfl⟩ := acts_deleteRefused h
    exact needsWindow_kind needs
  have link : ∀ answer, act ≠ .link answer := by
    rintro answer rfl
    exact needsWindow_kind needs
  have rejected : ∀ peer, act ≠ .deletedRejected peer := by
    rintro peer rfl
    exact needsWindow_kind needs
  cases event with
  | connect status connection found =>
    dsimp only [handleGap, handleConnect] at h
    split at h
    · cases h
    rcases List.mem_append.mp h with refused | connected
    · exact absurd refused refusedRecord
    · exact absurd (List.mem_singleton.mp connected) (link _)
  | disconnect connection => exact absurd h refusedRecord
  | encryptionChange connection status found deleted =>
    dsimp only [handleGap, handleEncryptionChange] at h
    split at h
    · exact absurd (List.mem_singleton.mp h) (link _)
    · exact absurd (List.mem_singleton.mp h) (link _)
    · cases found with
      | some conn =>
        rcases List.mem_cons.mp h with h | h
        · exact absurd h (link _)
        rcases List.mem_cons.mp h with h | h
        · exact absurd h (rejected _)
        · exact absurd h refusedRecord
      | none =>
        rcases List.mem_cons.mp h with h | h
        · exact absurd h (link _)
        · exact absurd h refusedRecord
    · rcases List.mem_cons.mp h with h | h
      · exact absurd h (link _)
      · exact absurd h refusedRecord
    · cases h
  | pairingComplete => cases h
  | repeatPairing connection found deleted =>
    dsimp only [handleGap, handleRepeatPairing] at h
    split at h
    · -- the answer tells that the window was open
      rename_i hanswer
      rcases List.mem_cons.mp h with old | h
      swap
      · exact absurd (List.mem_singleton.mp h) (link _)
      refine ⟨?_, _, old⟩
      by_contra closed
      have action : s.repeatPairingAction now = .ignoreAndDisconnect := by
        unfold repeatPairingAction
        rw [if_neg closed]
      rw [action] at hanswer
      unfold LinkState.handleRepeatPairing at hanswer
      rw [if_neg (by simp)] at hanswer
      cases hanswer
    · exact absurd (List.mem_singleton.mp h) (link _)
  | authorize connection => exact absurd (List.mem_singleton.mp h) (link _)
  | _ => cases h

/-- What needs the window in a write happens inside it, or past the guard. -/
theorem needsWindow_storeWrite {stored : Bool} (h : act ∈ (s.storeWrite record stored now).2)
    (needs : act.NeedsWindow) :
    record.isBondRecord = true ∧ (s.window.isOpen now = true ∨ ¬ s.Held) := by
  have bond : record.isBondRecord = true := by
    rcases acts_storeWrite h with rfl | ⟨hook, rfl⟩
    · exact (needsWindow_kind needs).elim
    · exact needsWindow_kind needs
  refine ⟨bond, ?_⟩
  unfold storeWrite at h
  split at h
  · cases h
  · left
    by_contra closed
    unfold guardedStoreWrite at h
    have refused : act ≠ .refused record := by
      rintro rfl
      exact needsWindow_kind needs
    split at h
    · exact refused (List.mem_singleton.mp h)
    rw [if_neg (by simpa using bond), if_pos (by simpa using closed)] at h
    exact refused (List.mem_singleton.mp h)
  · rename_i address hslot
    right
    rintro (guarded | empty)
    · rw [hslot] at guarded
      cases guarded
    · rw [hslot] at empty
      cases empty

/-- **What needs the window** happens inside it and is no record, or the host writes a pairing's
record, inside the window or past the guard. -/
theorem needsWindow_step (h : act ∈ (s.step i).2) (needs : act.NeedsWindow) :
    (s.window.isOpen i.decidedAt = true ∧ ∀ hook record stored, act ≠ .reached hook record stored) ∨
      ∃ record stored, i.event = .storeWrite record stored ∧ record.isBondRecord = true ∧
        (s.window.isOpen i.decidedAt = true ∨ ¬ s.Held) := by
  have link : ∀ answer, act ≠ .link answer := by
    rintro answer rfl
    exact needsWindow_kind needs
  have gap : ∀ event, i.event.isGap = true → act ∈ ((s.ensureStoreGuard.1.applyWindowState
      i.first).handleGap event i.second).2 → s.window.isOpen i.decidedAt = true ∧
        ∀ hook record stored, act ≠ .reached hook record stored := by
    intro event isGap h
    unfold SecurityInput.decidedAt
    rw [if_pos isGap]
    obtain ⟨opened, peer, rfl⟩ := needsWindow_gap h needs
    exact ⟨isOpen_of_applied (s := s.ensureStoreGuard.1) (applied _ i.first).window opened,
      by simp⟩
  unfold step handle at h
  unfold SecurityInput.decidedAt at gap ⊢
  cases hevent : i.event with
  | synced slot =>
    rw [hevent] at h
    cases h
  | storeStatus evicted =>
    rw [hevent] at h
    dsimp only [onStoreStatus] at h
    split at h
    · cases h
    · rename_i opened
      obtain rfl := List.mem_singleton.mp h
      exact Or.inl ⟨by simpa [SecurityEvent.isGap] using opened, by simp⟩
  | storeWrite record stored =>
    rw [hevent] at h
    obtain ⟨bond, opened⟩ := needsWindow_storeWrite h needs
    exact Or.inr ⟨record, stored, rfl, bond, by simpa [SecurityEvent.isGap] using opened⟩
  | userKey level =>
    rw [hevent] at h
    have pressed : act = .pressed := by
      dsimp only [onUserKeyTimer] at h
      repeat' split at h
      · cases h
      all_goals exact List.mem_singleton.mp h
    subst pressed
    exact (needsWindow_kind needs).elim
  | windowTimer | dropTimer | disconnectAfterResponse =>
    rw [hevent] at h
    cases h
  | disconnectTimer | protectedAccess =>
    rw [hevent] at h
    exact absurd (List.mem_singleton.mp h) (link _)
  | clearBonds cleared =>
    rw [hevent] at h
    obtain rfl := List.mem_singleton.mp h
    exact (needsWindow_kind needs).elim
  | connect | disconnect | encryptionChange | pairingComplete | repeatPairing | authorize
    | otherGap =>
    rw [hevent] at h gap
    exact Or.inl (gap _ rfl h)

/-! ### The keys of a link -/

/-- The handlers of the link other than a new connection's do not forget that keys were written. -/
theorem keysWritten_encryptionChange {link : LinkState} (written : link.link.keysWritten = true)
    (connection : ConnHandle) (status : ℤ) (description : Option ConnDescription) :
    (link.handleEncryptionChange connection status description).1.link.keysWritten = true := by
  unfold LinkState.handleEncryptionChange
  split
  · exact written
  · dsimp only
    split <;> simpa [LinkSecurity.encrypted] using written

theorem keysWritten_protectedAccess {link : LinkState} (written : link.link.keysWritten = true)
    (connection : ConnHandle) (description : Option ConnDescription) (now : PairingClock) :
    (link.checkProtectedAccess connection description now).1.link.keysWritten = true := by
  rcases (link.checkProtectedAccess_fst connection description now).2 with same |
    ⟨encryption, bond, accessed⟩
  · rw [same]
    exact written
  · rw [accessed]
    rcases link.link.checkProtectedAccess_fst now encryption bond with same | noted
    · rw [same]
      exact written
    · rw [noted]
      unfold LinkSecurity.noteRejection
      split <;> exact written

theorem keysWritten_handleGap {event : SecurityEvent} (now : PairingClock)
    (written : s.link.link.keysWritten = true)
    (kept : ∀ connection found, event ≠ .connect 0 connection found) :
    (s.handleGap event now).1.link.link.keysWritten = true := by
  cases event with
  | connect status connection found =>
    dsimp only [handleGap, handleConnect]
    split
    · exact written
    · rename_i connected
      rw [not_not] at connected
      rw [connected] at kept
      exact absurd rfl (kept connection found)
  | disconnect connection =>
    dsimp only [handleGap, handleDisconnect]
    rw [link_deleteRefused]
    unfold LinkState.handleDisconnect
    split <;> exact written
  | encryptionChange connection status found deleted =>
    have decided := keysWritten_encryptionChange written connection status
      (found.map s.description)
    dsimp only [handleGap, handleEncryptionChange]
    split
    · rw [(applied _ now).link]
      exact decided
    · exact decided
    · cases found with
      | some conn => simpa using decided
      | none => simpa using decided
    · simpa using decided
    · exact decided
  | pairingComplete connection status =>
    dsimp only [handleGap, LinkState.handlePairingComplete]
    split <;> exact written
  | repeatPairing connection found deleted =>
    have decided : (s.link.handleRepeatPairing connection (found.map s.description)
        (s.repeatPairingAction now) now).1.link.keysWritten = true := by
      unfold LinkState.handleRepeatPairing
      split
      · exact written
      · simpa using written
    dsimp only [handleGap, handleRepeatPairing]
    split
    · simpa using decided
    · exact decided
  | authorize connection =>
    dsimp only [handleGap, LinkState.handleAuthorize]
    split
    · exact written
    · simpa using written
  | _ => exact written

theorem link_replaceSlot (s : SecurityState) (replaced : Option (Option StoreHook)) :
    (s.replaceSlot replaced).link = s.link := by
  cases replaced <;> rfl

theorem bonds_replaceSlot (s : SecurityState) (replaced : Option (Option StoreHook)) :
    (s.replaceSlot replaced).bonds = s.bonds := by
  cases replaced <;> rfl

theorem link_recorded (s : SecurityState) (record : StoreRecord) :
    (s.recorded record).link = s.link := by
  unfold SecurityState.recorded
  split <;> rfl

/-- **Only a new connection** forgets that keys were written. -/
theorem keysWritten_step (written : s.link.link.keysWritten = true)
    (kept : ∀ connection found, i.event ≠ .connect 0 connection found) :
    (s.step i).1.link.link.keysWritten = true := by
  have gap : ∀ event, event = i.event →
      ((s.ensureStoreGuard.1.applyWindowState i.first).handleGap event
        i.second).1.link.link.keysWritten = true := by
    rintro event rfl
    refine keysWritten_handleGap i.second ?_ kept
    rw [(applied _ i.first).link]
    exact written
  unfold step handle
  cases hevent : i.event with
  | synced slot =>
    rw [(applied _ i.first).link]
    exact written
  | storeStatus evicted =>
    dsimp only [onStoreStatus]
    split
    · exact written
    · change ((SecurityState.replaceSlot _ i.replaced).link.link).keysWritten = true
      rw [link_replaceSlot]
      exact written
  | userKey level =>
    dsimp only [onUserKeyTimer]
    rw [link_replaceSlot]
    repeat' split
    · exact written
    · exact written
    · rw [(applied _ i.second).link]
      exact written
    · exact written
  | windowTimer =>
    rw [link_replaceSlot, (applied _ i.first).link]
    exact written
  | dropTimer =>
    rw [link_replaceSlot]
    dsimp only [LinkState.onDropTimer]
    split
    · exact written
    · split
      · simpa using written
      · exact written
  | disconnectTimer =>
    rw [link_replaceSlot]
    exact written
  | clearBonds cleared =>
    rw [link_replaceSlot]
    exact written
  | storeWrite record stored =>
    dsimp only
    rw [link_replaceSlot]
    unfold storeWrite guardedStoreWrite
    repeat' split
    all_goals first
      | exact written
      | rfl
      | (rw [link_recorded]; exact written)
  | protectedAccess connection found =>
    rw [link_replaceSlot]
    exact keysWritten_protectedAccess written connection (found.map s.description) i.first
  | disconnectAfterResponse connection =>
    dsimp only
    rw [link_replaceSlot]
    simpa using written
  | connect | disconnect | encryptionChange | pairingComplete | repeatPairing | authorize
    | otherGap =>
    dsimp only
    rw [link_replaceSlot]
    exact gap _ hevent.symm

/-- A write adds a bond only with its security record. -/
theorem bonds_storeWrite {stored : Bool} (none : peer ∉ s.bonds)
    (unstored : ∀ hook,
      .reached hook (.peerSec peer true) true ∉ (s.storeWrite record stored now).2) :
    peer ∉ (s.storeWrite record stored now).1.bonds := by
  have recorded : record ≠ .peerSec peer true → peer ∉ (s.recorded record).bonds := by
    intro other
    unfold SecurityState.recorded
    split
    · rename_i written
      refine List.not_mem_cons_of_ne_of_not_mem ?_ none
      rintro rfl
      exact other rfl
    · exact fun h => none (List.mem_of_mem_filter h)
    · exact none
  have forwarded : ∀ hook : StoreHook, .reached hook (.peerSec peer true) true ∉
        [SecurityAct.reached hook record stored] →
      peer ∉ (if stored then s.recorded record else s).bonds := by
    intro hook unreached
    split
    · rename_i kept
      subst kept
      refine recorded fun same => unreached ?_
      rw [same]
      exact List.mem_singleton_self _
    · exact none
  unfold storeWrite guardedStoreWrite at unstored ⊢
  cases hslot : s.slot with
  | none => exact none
  | some slot =>
    rw [hslot] at unstored
    cases slot with
    | host address => exact forwarded _ (unstored _)
    | guarded =>
      cases horiginal : s.storeGuard.original with
      | none => exact none
      | some hook =>
        rw [horiginal] at unstored
        dsimp only at unstored ⊢
        by_cases bond : record.isBondRecord = true
        · rw [if_neg (by simpa using bond)] at unstored ⊢
          by_cases opened : s.window.isOpen now = true
          · rw [if_neg (by simpa using opened)] at unstored ⊢
            have := forwarded hook (unstored hook)
            split
            · rename_i kept
              rwa [if_pos kept] at this
            · exact none
          · rw [if_pos (by simpa using opened)]
            exact none
        · rw [if_pos (by simpa using bond)] at unstored ⊢
          exact forwarded hook (unstored hook)

/-- A record of a pairing that was stored through the guard marks the link. -/
theorem keysWritten_of_stored {hook : StoreHook} (held : s.Held) (bond : record.isBondRecord = true)
    (h : .reached hook record true ∈ (s.step i).2) : (s.step i).1.link.link.keysWritten = true := by
  rcases needsWindow_step h (Or.inl ⟨hook, record, true, rfl, bond⟩) with
    ⟨-, other⟩ | ⟨record', stored, hevent, -, opened⟩
  · exact absurd rfl (other hook record true)
  unfold step handle at h ⊢
  rw [hevent] at h ⊢
  rcases acts_storeWrite h with other | ⟨hook', same⟩
  · cases other
  obtain ⟨rfl, rfl, rfl⟩ := SecurityAct.reached.inj same
  have opened := opened.resolve_right (not_not_intro held)
  unfold SecurityInput.decidedAt at opened
  rw [hevent, if_neg (by simp [SecurityEvent.isGap])] at opened
  rw [link_replaceSlot]
  unfold storeWrite at h ⊢
  rcases held with guarded | empty
  · rw [guarded] at h ⊢
    dsimp only at h ⊢
    unfold guardedStoreWrite at h ⊢
    split at h
    · simp at h
    · dsimp only at h ⊢
      rw [if_neg (by simpa using bond), if_neg (by simpa using opened), if_pos rfl]
      rfl
  · rw [empty] at h
    cases h

/-- **A bond appears** only with its security record. -/
theorem bonds_step (none : peer ∉ s.bonds)
    (unstored : ∀ hook, .reached hook (.peerSec peer true) true ∉ (s.step i).2) :
    peer ∉ (s.step i).1.bonds := by
  have gap : ∀ event, event = i.event →
      peer ∉ ((s.ensureStoreGuard.1.applyWindowState i.first).handleGap event i.second).1.bonds := by
    rintro event rfl h
    have before := (beside_handleGap _ _ _).bonds peer h
    rw [(applied _ i.first).bonds] at before
    exact none before
  unfold step handle at unstored ⊢
  cases hevent : i.event with
  | synced slot =>
    rw [(applied _ i.first).bonds]
    exact none
  | storeStatus evicted =>
    dsimp only [onStoreStatus]
    split
    · exact none
    · change peer ∉ (SecurityState.replaceSlot _ i.replaced).bonds
      rw [bonds_replaceSlot]
      exact fun h => none (List.mem_of_mem_filter h)
  | userKey level =>
    dsimp only [onUserKeyTimer]
    rw [bonds_replaceSlot]
    repeat' split
    · exact none
    · exact none
    · rw [(applied _ i.second).bonds]
      exact none
    · exact none
  | windowTimer =>
    rw [bonds_replaceSlot, (applied _ i.first).bonds]
    exact none
  | dropTimer | disconnectTimer | protectedAccess | disconnectAfterResponse =>
    rw [bonds_replaceSlot]
    exact none
  | clearBonds cleared =>
    rw [bonds_replaceSlot]
    exact fun h => none (List.mem_of_mem_filter h)
  | storeWrite record stored =>
    rw [hevent] at unstored
    rw [bonds_replaceSlot]
    exact bonds_storeWrite none unstored
  | connect | disconnect | encryptionChange | pairingComplete | repeatPairing | authorize
    | otherGap =>
    rw [bonds_replaceSlot]
    exact gap _ hevent.symm

/-- An encryption of a link with written keys, whose central has no bond, is not accepted. -/
theorem encryptionChange_rejected {link : LinkState} (written : link.link.keysWritten = true)
    (status : ℤ) {description : Option ConnDescription}
    (unstored : ∀ d ∈ description, d.storedBond = .none) :
    (link.handleEncryptionChange link.connection status description).2 =
        .verdict .rejectedDeleteKeys ∧
      (link.handleEncryptionChange link.connection status description).1.link.accepted = false ∧
      (link.connection ≠ none →
        (link.handleEncryptionChange link.connection status description).1.disconnectConnection =
          link.connection) := by
  have refused : isAcceptedBond (LinkState.encryptedLink status description) = false := by
    unfold LinkState.encryptedLink
    cases description with
    | none => rfl
    | some d =>
      dsimp only
      split
      · simp [isAcceptedBond, unstored d rfl]
      · rfl
  unfold LinkState.handleEncryptionChange LinkSecurity.encrypted
  rw [if_neg (not_not_intro rfl), refused, written]
  refine ⟨rfl, by simp, fun connected => ?_⟩
  simp [LinkState.scheduleDisconnect, connected]

/-- **A pairing whose security record is missing** is rejected at the link's encryption. -/
theorem rejected_step {status : ℤ} {found : Option HostConn} {deleted : Bool}
    (written : s.link.link.keysWritten = true) (unbonded : peer ∉ s.bonds)
    (hevent : i.event = .encryptionChange s.link.connection status found deleted)
    (central : ∀ conn ∈ found, conn.peer = peer) :
    .link (.verdict .rejectedDeleteKeys) ∈ (s.step i).2 ∧
      (∀ conn ∈ found, .deletedRejected conn.peer ∈ (s.step i).2) ∧
      (s.step i).1.link.link.accepted = false ∧
      (s.link.connection ≠ none →
        (s.step i).1.link.disconnectConnection = s.link.connection) := by
  have before := applied s.ensureStoreGuard.1 i.first
  generalize happlied : s.ensureStoreGuard.1.applyWindowState i.first = t at before
  have link : t.link = s.link := before.link
  have bonds : t.bonds = s.bonds := before.bonds
  have unstored : ∀ d ∈ found.map t.description, d.storedBond = .none := by
    intro d hd
    obtain ⟨conn, hconn, rfl⟩ := Option.map_eq_some_iff.mp hd
    have absent : conn.peer ∉ t.bonds := by
      rw [central conn hconn, bonds]
      exact unbonded
    exact if_neg absent
  have written' : t.link.link.keysWritten = true := by rw [link]; exact written
  obtain ⟨answer, accepted, disconnect⟩ := encryptionChange_rejected written' status unstored
  unfold step handle
  rw [hevent]
  rw [happlied, link_replaceSlot]
  dsimp only [handleGap, handleEncryptionChange]
  rw [← link] at *
  rw [answer]
  cases found with
  | none =>
    rw [link_deleteRefused]
    exact ⟨List.mem_cons_self, by simp, accepted, disconnect⟩
  | some conn =>
    rw [link_deleteRefused, link_deletePeer]
    refine ⟨List.mem_cons_self, ?_, accepted, disconnect⟩
    rintro conn' ⟨⟩
    exact List.mem_cons_of_mem _ List.mem_cons_self

/-! ### Runs -/

section Runs

variable {storage : BondStorage} {slot : Option StoreHook} {bonds : List Peer}

theorem forwards_run :
    (after SecurityState.step (configured storage slot bonds) inputs).Forwards := by
  refine invariant (P := fun s _ => Forwards s) ?_ ?_ inputs
  · exact forwards_ensureStoreGuard ⟨rfl, by simp⟩
  · exact fun s _ i forwards => forwards_step forwards i

/-- After a replacement and a handler the slot holds the guard again. -/
theorem held_run (installed : Installed inputs) :
    (after SecurityState.step (configured storage slot bonds) inputs).Held := by
  induction inputs using List.reverseRecOn with
  | nil => exact held_ensureStoreGuard ⟨rfl, by simp⟩
  | append_singleton inputs i ih =>
    obtain ⟨since, kept⟩ := since_snoc.mp installed
    rw [after_snoc]
    refine held_step (forwards_run inputs) (fun replaces => ?_) ?_
    · obtain ⟨j, hj, -⟩ := kept replaces
      cases hj
    · by_cases installs : i.installs
      · exact Or.inr installs
      · refine Or.inl (ih (since.mono fun later => ?_))
        rintro ⟨j, hj, hinstalls⟩
        rcases List.mem_append.mp hj with hj | hj
        · exact ⟨j, hj, hinstalls⟩
        · rw [List.mem_singleton.mp hj] at hinstalls
          exact absurd hinstalls installs

theorem ordered_of_snoc {inputs : List SecurityInput} (ordered : Ordered (inputs ++ [i])) :
    Ordered inputs :=
  ⟨fun j hj => ordered.within j (List.mem_append_left _ hj),
    (List.pairwise_append.mp ordered.between).1⟩

/-- The inputs of a trace. -/
theorem map_fst_trace (s : SecurityState) (inputs : List SecurityInput) :
    (trace SecurityState.step s inputs).map Prod.fst = inputs := by
  induction inputs generalizing s with
  | nil => rfl
  | cons i inputs ih => rw [trace, List.map_cons, ih]

/-- The window of the state is that of the history. -/
theorem window_run (ordered : Ordered inputs) :
    let s := after SecurityState.step (configured storage slot bonds) inputs
    let h := trace SecurityState.step (configured storage slot bonds) inputs
    s.window.storage = storage ∧ ∀ closesAt, s.window.closesAt = some closesAt →
      storage = .available ∧
        ∃ press, latest AcceptsBond pressedAt h = some press ∧
          closesAt ≤ press + kPairingWindowPeriod := by
  induction inputs using List.reverseRecOn with
  | nil => exact ⟨rfl, fun closesAt h => by cases h⟩
  | append_singleton inputs i ih =>
    intro s' h'
    obtain ⟨stored, windows⟩ := ih (ordered_of_snoc ordered)
    have stepped := window_step
      (after SecurityState.step (configured storage slot bonds) inputs) i
    have hs' : s' = _ := after_snoc ..
    have hh' : h' = _ := trace_snoc ..
    rw [hs', hh']
    refine ⟨stepped.storage.trans stored, fun closesAt hcloses => ?_⟩
    rw [latest_snoc]
    rcases stepped.closesAt with closed | ⟨same, unaccepted⟩ |
      ⟨opened, available, pressed, unaccepted⟩
    · rw [closed] at hcloses
      cases hcloses
    · rw [same] at hcloses
      obtain ⟨available, press, hpress, before⟩ := windows closesAt hcloses
      refine ⟨available, ?_⟩
      rw [if_neg unaccepted, hpress]
      -- a press that opened nothing is not earlier than the one that did
      unfold pressedAt
      split
      · refine ⟨i.first, rfl, le_trans before (Int.add_le_add_right ?_ _)⟩
        obtain ⟨entry, hentry, hvalue⟩ := exists_of_latest hpress
        unfold pressedAt at hvalue
        rw [Option.ite_none_right_eq_some] at hvalue
        have hinput : entry.1 ∈ inputs := by
          rw [← map_fst_trace (configured storage slot bonds) inputs]
          exact List.mem_map_of_mem hentry
        have later := (List.pairwise_append.mp ordered.between).2.2 entry.1 hinput i
          (List.mem_singleton_self i)
        rw [← Option.some.inj hvalue.2]
        exact le_trans (ordered.within entry.1 (List.mem_append_left _ hinput)) later
      · exact ⟨press, rfl, before⟩
    · rw [opened] at hcloses
      obtain rfl := Option.some.inj hcloses
      refine ⟨stored.symm.trans available, i.first, ?_, le_refl _⟩
      rw [if_neg unaccepted, pressedAt, if_pos pressed]
      rfl

/-- What needed the window happened inside it. -/
theorem needsWindow_run (ordered : Ordered inputs) (guarded : Guarded inputs) :
    Lawful (fun before entry => ∀ act ∈ entry.2, act.NeedsWindow →
      storage = .available ∧ WindowOpen before entry.1.decidedAt)
      (trace SecurityState.step (configured storage slot bonds) inputs) := by
  induction inputs using List.reverseRecOn with
  | nil => exact lawful_nil _
  | append_singleton inputs i ih =>
    obtain ⟨earlier, last⟩ := lawful_snoc.mp guarded
    rw [trace_snoc]
    refine lawful_snoc.mpr ⟨ih (ordered_of_snoc ordered) earlier, fun act hact needs => ?_⟩
    have opened : (after SecurityState.step (configured storage slot bonds)
        inputs).window.isOpen i.decidedAt = true := by
      rcases needsWindow_step hact needs with ⟨opened, -⟩ | ⟨record, stored, hevent, bond, opened⟩
      · exact opened
      · exact opened.resolve_right (not_not_intro (held_run inputs (last record stored hevent bond)))
    obtain ⟨closesAt, hcloses, before⟩ := PairingWindow.isOpen_iff.mp opened
    obtain ⟨available, press, hpress, le⟩ :=
      (window_run inputs (ordered_of_snoc ordered)).2 closesAt hcloses
    exact ⟨available, press, hpress, lt_of_lt_of_le before le⟩

/-- The store guard is in place wherever a run writes a pairing's record. -/
theorem keysWritten_run {before : List SecurityInput}
    (reached : s = after SecurityState.step (configured storage slot bonds) before)
    (between : List SecurityInput) (guarded : Guarded (before ++ between))
    (kept : ∀ entry ∈ trace SecurityState.step s between,
      ∀ connection found, entry.1.event ≠ .connect 0 connection found)
    (written : ∃ entry ∈ trace SecurityState.step s between, ∃ hook record,
      record.isBondRecord = true ∧ .reached hook record true ∈ entry.2) :
    (after SecurityState.step s between).link.link.keysWritten = true := by
  induction between using List.reverseRecOn with
  | nil =>
    obtain ⟨entry, hentry, -⟩ := written
    cases hentry
  | append_singleton between i ih =>
    rw [← List.append_assoc] at guarded
    obtain ⟨earlier, last⟩ := lawful_snoc.mp guarded
    rw [trace_snoc] at kept written
    rw [after_snoc]
    have keptLast := kept _ (List.mem_append_right _ (List.mem_singleton_self _))
    obtain ⟨entry, hentry, hook, record, bond, hreached⟩ := written
    rcases List.mem_append.mp hentry with hentry | hentry
    · refine keysWritten_step (ih earlier ?_ ⟨entry, hentry, hook, record, bond, hreached⟩) keptLast
      exact fun entry hentry => kept entry (List.mem_append_left _ hentry)
    · rw [List.mem_singleton.mp hentry] at hreached
      -- the host wrote this record, so that the guard was in its slot
      have held : (after SecurityState.step s between).Held := by
        rw [reached, ← after_append]
        rcases needsWindow_step hreached (Or.inl ⟨hook, record, true, rfl, bond⟩) with
          ⟨-, other⟩ | ⟨record', stored, hevent, bond', -⟩
        · exact absurd rfl (other hook record true)
        · exact held_run _ (last record' stored hevent bond')
      exact keysWritten_of_stored held bond hreached

/-- A bond that is not stored does not appear. -/
theorem bonds_run (none : peer ∉ s.bonds) (between : List SecurityInput)
    (unstored : ∀ entry ∈ trace SecurityState.step s between,
      ∀ hook, .reached hook (.peerSec peer true) true ∉ entry.2) :
    peer ∉ (after SecurityState.step s between).bonds := by
  induction between using List.reverseRecOn with
  | nil => exact none
  | append_singleton between i ih =>
    rw [trace_snoc] at unstored
    rw [after_snoc]
    refine bonds_step (ih fun entry hentry => ?_) ?_
    · exact unstored entry (List.mem_append_left _ hentry)
    · exact unstored _ (List.mem_append_right _ (List.mem_singleton_self _))

end Runs

end SecurityState

/-- **Pairing only inside the window**. In every run whose clock does not go back, and in which a
handler installs the guard before a pairing writes, a record of a pairing reaches the store, and an
old bond is evicted or deleted for a pairing, only while the window is open by the history; the
guard does not forward to itself; and a pairing that stored some record, but not the security
record of a central without a bond, is rejected at the link's encryption, with its keys deleted. -/
theorem pairing_only_inside_window (storage : BondStorage) (slot : Option StoreHook)
    (bonds : List Peer) (inputs : List SecurityInput) (ordered : Ordered inputs)
    (guarded : Guarded inputs) :
    let s₀ := SecurityState.configured storage slot bonds
    let s := after SecurityState.step s₀ inputs
    (∀ before entry after, trace SecurityState.step s₀ inputs = before ++ entry :: after →
      ∀ act ∈ entry.2, act.NeedsWindow →
        storage = .available ∧ WindowOpen before entry.1.decidedAt) ∧
    s.storeGuard.original ≠ some s.storeGuard.guard ∧
    ∀ before between, inputs = before ++ between →
      ∀ peer, peer ∉ (after SecurityState.step s₀ before).bonds →
        (∀ entry ∈ trace SecurityState.step (after SecurityState.step s₀ before)
            between, (∀ connection found, entry.1.event ≠ .connect 0 connection found) ∧
          ∀ hook, .reached hook (.peerSec peer true) true ∉ entry.2) →
        (∃ entry ∈ trace SecurityState.step (after SecurityState.step s₀ before)
            between, ∃ hook record, record.isBondRecord = true ∧
          .reached hook record true ∈ entry.2) →
        ∀ (i : SecurityInput) (status : ℤ) (found : Option HostConn) (deleted : Bool),
          i.event = .encryptionChange s.link.connection status found deleted →
          (∀ conn ∈ found, conn.peer = peer) →
          .link (.verdict .rejectedDeleteKeys) ∈ (s.step i).2 ∧
            (∀ conn ∈ found, .deletedRejected conn.peer ∈ (s.step i).2) ∧
            (s.step i).1.link.link.accepted = false ∧
            (s.link.connection ≠ none →
              (s.step i).1.link.disconnectConnection = s.link.connection) := by
  intro s₀ s
  have forwards : s.Forwards := SecurityState.forwards_run inputs
  refine ⟨?_, by rw [forwards.1]; exact forwards.2, ?_⟩
  · exact SecurityState.needsWindow_run inputs ordered guarded
  · intro before between split peer unbonded kept written i status found deleted hevent central
    have after : s = after SecurityState.step
        (after SecurityState.step s₀ before) between := by
      rw [← after_append, ← split]
    have keysWritten : s.link.link.keysWritten = true := by
      rw [after]
      exact SecurityState.keysWritten_run rfl between (split ▸ guarded)
        (fun entry hentry => (kept entry hentry).1) written
    have still : peer ∉ s.bonds := by
      rw [after]
      exact SecurityState.bonds_run unbonded between fun entry hentry => (kept entry hentry).2
    exact SecurityState.rejected_step keysWritten still hevent central

/-- A host that leaves the slot alone writes through the guard. -/
theorem guarded_of_unreplaced {inputs : List SecurityInput}
    (unreplaced : ∀ i ∈ inputs, i.replaced = none) : Guarded inputs := by
  intro before i after split record stored hevent bond earlier j later hbefore replaces
  have hj : j.replaced = none := by
    refine unreplaced j ?_
    rw [split, hbefore]
    simp
  rw [SecurityInput.replaces, hj] at replaces
  cases replaces.1

/-- A key press, a connection, and the first of two records just before the window closes. -/
def lateKeys : List SecurityInput :=
  [⟨.synced (some (.host 1)), 0, 0, none⟩, ⟨.userKey .released, 20, 20, none⟩,
    ⟨.userKey .released, 40, 40, none⟩, ⟨.userKey .released, 60, 60, none⟩,
    ⟨.userKey .pressed, 80, 80, none⟩, ⟨.userKey .pressed, 100, 100, none⟩,
    ⟨.userKey .pressed, 120, 120, none⟩, ⟨.connect 0 (some 1) none, 200, 200, none⟩]

/-- The peer's security record comes too late, and the pairing is rejected. -/
theorem pairing_only_inside_window_late :
    let records : List SecurityInput :=
      [⟨.storeWrite (.ourSec 5) true, 120100, 120100, none⟩,
        ⟨.storeWrite (.peerSec 5 true) true, 120121, 120121, none⟩]
    let s := after SecurityState.step (.configured .available (some (.host 1)) [])
      (lateKeys ++ records)
    .link (.verdict .rejectedDeleteKeys) ∈
      (s.step ⟨.encryptionChange (some 1) 0 (some ⟨5, true, true, 16⟩) true, 120130, 120130,
        none⟩).2 := by
  intro records s
  have ordered : Ordered (lateKeys ++ records) := ⟨by decide, by decide⟩
  have guarded : Guarded (lateKeys ++ records) := guarded_of_unreplaced (by decide)
  have trace : trace SecurityState.step (after SecurityState.step
      (.configured .available (some (.host 1)) []) lateKeys) records =
      [(records[0], [.reached (.host 1) (.ourSec 5) true]),
        (records[1], [.refused (.peerSec 5 true)])] := by decide
  refine ((pairing_only_inside_window .available (some (.host 1)) [] (lateKeys ++ records) ordered
    guarded).2.2 lateKeys records rfl 5 (by decide) ?_ ?_ _ 0 (some ⟨5, true, true, 16⟩) true
    ?_ (by decide)).1
  · rw [trace]
    intro entry hentry
    simp only [List.mem_cons, List.not_mem_nil, or_false] at hentry
    rcases hentry with rfl | rfl <;> exact ⟨by simp [records], by simp⟩
  · rw [trace]
    exact ⟨_, List.mem_cons_self, .host 1, .ourSec 5, rfl, List.mem_singleton_self _⟩
  · rfl

end AccessoryController.CompanionBle
