import AccessoryController.CompanionProtocol.CatalogPages
import AccessoryController.CompanionProtocol.LivePass

/-!
# Fairness of the live stream

Every sampled offer is one round of the round-robin service of the handles, whether the sink
accepts its packet or refuses it. A handle that stays due comes closer to the cursor by five
places with every packet that does not contain it.

## Main definitions

* `Samples`, `Delivers`: the sampled offers, and the moves that offer a record of a handle

## Main results

* `deliveredOrCloser_of_moves`: what a segment without a restart does to a waiting handle
* `live_stream_fairness`: a due handle is offered within `n / 5` samples, rounded up
-/

namespace AccessoryController.CompanionProtocol

open RoundRobin VehicleSignals

variable {s : ExtensibleLiveSignalStream}

namespace ExtensibleLiveSignalStream

variable (catalog : SignalCatalogExport) (provider : SignalCatalogView)

/-- The move is a sampled offer. -/
def Samples : Move → Prop
  | (s, .offer o) => s.Opens catalog o
  | _ => False

instance (s : ExtensibleLiveSignalStream) (o : Offer) : Decidable (s.Opens catalog o) := by
  unfold Opens
  infer_instance

instance (move : Move) : Decidable (Samples catalog move) := by
  unfold Samples
  split <;> infer_instance

/-- The record of a handle is due at the move, if it is an offer. -/
def DueAt (handle : ℕ) : Move → Prop
  | (s, .offer o) => s.handleDue catalog provider o handle
  | _ => True

/-- The packet that a move attempts contains a record of the handle. -/
def Delivers (handle : ℕ) (move : Move) : Prop :=
  ∃ attempt header records, attempted catalog provider move = some attempt ∧
    decodePacket attempt.packet.bytes = some (header, records) ∧
    handle ∈ records.map LiveRecord.handle

variable {catalog provider}

/-! ### A waiting handle -/

/-- A call that is no offer and does not restart the stream leaves the cursor alone. -/
theorem nextHandle_step {call : StreamCall} (steady : ¬ s.restarts catalog provider call)
    (control : ∀ o, call ≠ .offer o) :
    (s.step catalog provider call).1.nextHandle = s.nextHandle := by
  have conditions : ∀ update, ¬ (s.streaming catalog = false ∧
      (s.updateConditions catalog update).streaming catalog = true) →
        (s.updateConditions catalog update).nextHandle = s.nextHandle := by
    intro update steady
    rcases updateConditions_cases s update with ⟨hstop, hbegin, -⟩ | ⟨-, heq⟩
    · exact absurd ⟨hstop, hbegin⟩ steady
    · rw [heq]
  cases call with
  | setNotificationsEnabled enabled => exact conditions _ steady
  | setLinkSecured secured => exact conditions _ steady
  | setAttMtu mtu => exact conditions _ steady
  | setCatalogToken token =>
    show (s.setCatalogToken token).nextHandle = s.nextHandle
    rw [setCatalogToken, if_pos (not_not.mp steady)]
  | setConfigPaused paused => rfl
  | resetConnection => exact absurd trivial steady
  | offer o => exact absurd rfl (control o)

section

variable (few : catalog.signalCount ≤ kMaxSignalCatalogSignals)
include few

/-- An offer that samples delivers the handle, or brings the cursor closer to it. -/
theorem waits_offer (rotates : Rotates catalog s) {o : Offer} {handle m : ℕ}
    (opens : s.Opens catalog o) (due : s.handleDue catalog provider o handle)
    (waits : Waits catalog.signalCount 5 s.nextHandle handle m) :
    Delivers catalog provider handle (s, .offer o) ∨
      Waits catalog.signalCount 5 (s.offer catalog provider o).1.nextHandle handle (m + 1) := by
  have effect := @offerEffect_offer catalog provider s o few rotates
  have hattempt : attempted catalog provider (s, .offer o) = (s.offer catalog provider o).2 := rfl
  unfold Delivers
  rw [hattempt]
  generalize s.offer catalog provider o = result at effect ⊢
  obtain ⟨s', output⟩ := result
  cases effect with
  | closed shut => exact absurd opens shut
  | quiet _ nothing => exact absurd due (nothing handle)
  | attempted _ records packet cursor _ pass =>
    rcases pass.round.waits due waits with served | closer
    · exact Or.inl ⟨_, _, records, rfl, pass.decodes few, served⟩
    · exact Or.inr closer

/-- An offer that does not sample does nothing. -/
theorem offer_of_not_opens {o : Offer} (rotates : Rotates catalog s) (shut : ¬ s.Opens catalog o) :
    (s.offer catalog provider o).1 = s := by
  have effect := @offerEffect_offer catalog provider s o few rotates
  generalize s.offer catalog provider o = result at effect ⊢
  obtain ⟨s', output⟩ := result
  cases effect with
  | closed => rfl
  | quiet opens => exact absurd opens shut
  | attempted opens => exact absurd opens shut

/-- A move without a restart delivers a due handle if it samples, or brings the cursor closer. -/
theorem waits_step (rotates : Rotates catalog s) {call : StreamCall} {handle m : ℕ}
    (steady : ¬ s.restarts catalog provider call)
    (due : Samples catalog (s, call) → DueAt catalog provider handle (s, call))
    (waits : Waits catalog.signalCount 5 s.nextHandle handle m) :
    (Samples catalog (s, call) ∧ Delivers catalog provider handle (s, call)) ∨
      Waits catalog.signalCount 5 (s.step catalog provider call).1.nextHandle handle
        (m + if Samples catalog (s, call) then 1 else 0) := by
  by_cases samples : Samples catalog (s, call)
  · rw [if_pos samples]
    cases call with
    | offer o =>
      rcases waits_offer few rotates samples (due samples) waits with delivers | closer
      · exact Or.inl ⟨samples, delivers⟩
      · exact Or.inr closer
    | _ => exact samples.elim
  · rw [if_neg samples, Nat.add_zero]
    refine Or.inr ?_
    cases call with
    | offer o =>
      show Waits _ _ (s.offer catalog provider o).1.nextHandle handle m
      rw [offer_of_not_opens few rotates samples]
      exact waits
    | _ =>
      rw [nextHandle_step steady fun o => StreamCall.noConfusion]
      exact waits

end

variable (catalog provider) in
/-- In moves without a restart at which the handle stays due, it was delivered, or the cursor came
closer with every sample. -/
def DeliveredOrCloser (handle : ℕ) (s : ExtensibleLiveSignalStream) (moves : List Move) : Prop :=
  (∀ move ∈ moves, ¬ move.1.restarts catalog provider move.2) →
  (∀ move ∈ moves, Samples catalog move → DueAt catalog provider handle move) →
  (∃ move ∈ moves, Samples catalog move ∧ Delivers catalog provider handle move) ∨
    Waits catalog.signalCount 5 s.nextHandle handle
      (moves.countP fun move => Samples catalog move)

/-- **A segment of a run** delivers a handle that stays due, or brings the cursor closer. -/
theorem deliveredOrCloser_of_moves (few : catalog.signalCount ≤ kMaxSignalCatalogSignals)
    {handle : ℕ} (rotates : Rotates catalog s) (client : Client catalog.signalCount handle)
    (segment : List StreamCall) :
    DeliveredOrCloser catalog provider handle (Machine.after (step catalog provider) s segment)
      (Machine.moves (step catalog provider) s segment) := by
  have hcount : catalog.signalCount ≠ 0 :=
    Nat.ne_of_gt (Nat.lt_of_lt_of_le client.1 client.2)
  refine (Machine.invariant_moves (P := fun s' moves =>
    Rotates catalog s' ∧ DeliveredOrCloser catalog provider handle s' moves)
    ⟨rotates, fun _ _ => Or.inr (waits_zero (rotates hcount) client)⟩ ?_ segment).2
  rintro s' moves call ⟨rotates', ih⟩
  refine ⟨rotates_step few rotates' call, fun steady due => ?_⟩
  have hlast : (s', call) ∈ moves ++ [(s', call)] := List.mem_append_right _ List.mem_cons_self
  rcases ih (fun move hmove => steady move (List.mem_append_left _ hmove))
    (fun move hmove => due move (List.mem_append_left _ hmove)) with
    ⟨move, hmove, delivered⟩ | waits
  · exact Or.inl ⟨move, List.mem_append_left _ hmove, delivered⟩
  · rcases waits_step few rotates' (steady _ hlast) (due _ hlast) waits with delivered | closer
    · exact Or.inl ⟨_, hlast, delivered⟩
    · rw [List.countP_append, List.countP_singleton]
      simp only [decide_eq_true_eq]
      exact Or.inr closer

/-- **Delivery fairness.** After any run, in any segment without a restart, a handle whose record
is due at each of `n / 5` sampled offers, rounded up, is in one of the packets offered there,
whatever the other signals do and whichever packets the sink refuses. -/
theorem live_stream_fairness (view provider : SignalCatalogView) (calls segment : List StreamCall)
    (handle : ℕ) :
    let catalog := SignalCatalogExport.create view
    let moves := Machine.moves (step catalog provider)
      (Machine.after (step catalog provider) {} calls) segment
    1 ≤ handle → handle ≤ catalog.signalCount →
    (∀ move ∈ moves, ¬ move.1.restarts catalog provider move.2) →
    (∀ move ∈ moves, Samples catalog move → DueAt catalog provider handle move) →
    (catalog.signalCount + 4) / 5 ≤ (moves.countP fun move => Samples catalog move) →
    ∃ move ∈ moves, Samples catalog move ∧ Delivers catalog provider handle move := by
  intro catalog moves positive known steady due enough
  have few := signalCount_create_le view
  have rotates : Rotates catalog (Machine.after (step catalog provider) {} calls) :=
    rotates_after few calls
  rcases deliveredOrCloser_of_moves few rotates ⟨positive, known⟩ segment steady due with
    delivered | waits
  · exact delivered
  · -- the handle cannot have waited that long
    exact absurd enough (Nat.not_le.mpr (waits.lt (Nat.le_of_ble_eq_true rfl)))

/-- Seven speeds. -/
def speedCatalog : SignalCatalogView :=
  (List.range 7).map fun index =>
    { id := ⟨index + 1⟩, key := ascii "speed" ++ [(97 + index).toUInt8], type := .number,
      unit := .kilometresPerHour, capabilities := { read := true } }

/-- Ten kilometres per hour on every speed. -/
def speedOffer : Offer :=
  { gearOffer with
    read := fun _ =>
      { status := .ok
        value := some { value := some (.number ⟨0x41200000⟩), availability := .fresh } } }

/-- The seventh of seven speeds is offered at the second sample, though the sink refuses the packet
of the first, which holds the five speeds before it. -/
theorem live_stream_fairness_speeds :
    let catalog := SignalCatalogExport.create speedCatalog
    ∃ move ∈ Machine.moves (step catalog speedCatalog)
        (Machine.after (step catalog speedCatalog) {}
          [.setNotificationsEnabled true, .setLinkSecured true, .setAttMtu 64,
            .setCatalogToken 1])
        [.offer speedOffer, .offer { speedOffer with now := 350, tryQueue := fun _ => true }],
      Samples catalog move ∧ Delivers catalog speedCatalog 7 move := by
  refine live_stream_fairness speedCatalog speedCatalog
    [.setNotificationsEnabled true, .setLinkSecured true, .setAttMtu 64, .setCatalogToken 1]
    _ 7 (by decide) (by decide +kernel) ?_ ?_ (by decide +kernel)
  · intro move hmove
    rcases List.mem_pair.mp hmove with rfl | rfl <;> decide +kernel
  · intro move hmove _
    rcases List.mem_pair.mp hmove with rfl | rfl
    all_goals
      show handleDue _ _ _ _ _
      decide +kernel

end ExtensibleLiveSignalStream

end AccessoryController.CompanionProtocol
