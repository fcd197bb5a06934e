import AccessoryController.ActionEngine.Ownership
import AccessoryController.Library.Ledger

/-!
# What the provider holds for an engine

Attaching and detaching call the provider several times, and any of these calls may fail, also
during a rollback. The calls and their answers make a ledger: a successful subscription grants a
registration, a successful unsubscription gives it back, and a failed one leaves it live.

## Main definitions

* `ProviderCall`: a call at the provider with its answer
* `Engine.providerCalls`: the calls that one call on the engine makes
* `live`: the registrations that are live at the provider after some calls

## Main results

* `accounted_step`: the engine records what is live, for every call
* `detaches_drain`: retried detach calls remove what is left, newest first
* `subscriptions_accounted`: what holds of the registrations after every run
-/

namespace AccessoryController.ActionEngine

open VehicleSignals Ledger

/-! ### The calls at the provider -/

/-- A call at the provider with its answer. -/
inductive ProviderCall
  | subscribe (signal : SignalId) (answer : SignalResult ℕ)
  | unsubscribe (subscription : ℕ) (answer : SignalStatus)

/-- What a call changes at the provider. -/
def ProviderCall.entry : ProviderCall → Option (Entry Registration ℕ)
  | .subscribe signal answer =>
    answer.success?.map fun subscription => .grant ⟨signal, subscription⟩
  | .unsubscribe subscription .ok => some (.release subscription)
  | .unsubscribe subscription _ => some (.refusal subscription)

/-- The calls of `subscribe`. -/
def subscribeCalls (answer : SignalResult ℕ) (signal : SignalId)
    (registrations : List Registration) : List ProviderCall :=
  if registrations.any fun registration => registration.signal == signal then []
  else if registrations.length = kMaxRules then []
  else [.subscribe signal answer]

/-- The calls of `unsubscribeAll`. -/
def unsubscribeAllCalls (answers : ProviderAnswers) : List Registration → List ProviderCall
  | [] => []
  | registration :: older =>
    .unsubscribe registration.subscription (answers.unsubscribe older.length) ::
      if answers.unsubscribe older.length = .ok then unsubscribeAllCalls answers older else []

/-- The calls of `subscribeRules`. -/
def subscribeRulesCalls (answers : ProviderAnswers) :
    List Rule → List Registration → List ProviderCall
  | [], _ => []
  | rule :: rules, registrations =>
    subscribeCalls (answers.subscribe rules.length) rule.signal registrations ++
      match subscribe (answers.subscribe rules.length) rule.signal registrations with
      | (.ok, registrations) => subscribeRulesCalls answers rules registrations
      | _ => []

/-- The calls at the provider that one call on an engine makes. -/
def Engine.providerCalls (e : Engine) : Call → List ProviderCall
  | .attach answers =>
    if e.attached then []
    else
      subscribeRulesCalls answers e.rules e.registrations ++
        match subscribeRules answers e.rules e.registrations with
        | (.ok, _) => []
        | (_, registrations) => unsubscribeAllCalls answers registrations
  | .detach answers => if e.attached then unsubscribeAllCalls answers e.registrations else []
  | _ => []

/-- The calls at the provider over a run, in order. -/
def providerCalls (moves : List (Engine × Call)) : List ProviderCall :=
  moves.flatMap fun move => move.1.providerCalls move.2

/-- The ledger of the calls at the provider. -/
def ledger (calls : List ProviderCall) : List (Entry Registration ℕ) :=
  calls.filterMap ProviderCall.entry

/-- The registrations that are live at the provider after some calls, newest first. -/
def live (calls : List ProviderCall) : List Registration :=
  held Registration.subscription [] (ledger calls)

/-- The subscriptions that the calls removed with success. -/
def removed (calls : List ProviderCall) : List ℕ :=
  (ledger calls).filterMap Entry.released?

/-- The registrations that the calls were granted. -/
def granted (calls : List ProviderCall) : List Registration :=
  (ledger calls).filterMap Entry.granted?

/-- The engines and calls of a sequence of detach calls. -/
def detachCalls (tries : ℕ → ProviderAnswers) (n : ℕ) : List Call :=
  (List.range n).map fun k => .detach (tries k)

/-! ### One function at a time -/

@[simp] theorem ledger_append (first second : List ProviderCall) :
    ledger (first ++ second) = ledger first ++ ledger second := List.filterMap_append

/-- The calls lead from some registrations at the provider to others, and give back only what is
live. -/
def Leads (before : List Registration) (calls : List ProviderCall)
    (after : List Registration) : Prop :=
  held Registration.subscription before (ledger calls) = after ∧
    Lawful Registration.subscription before (ledger calls)

theorem Leads.refl (registrations : List Registration) : Leads registrations [] registrations :=
  ⟨rfl, trivial⟩

theorem Leads.trans {before middle after : List Registration} {first second : List ProviderCall}
    (left : Leads before first middle) (right : Leads middle second after) :
    Leads before (first ++ second) after := by
  obtain ⟨rfl, lawful⟩ := left
  obtain ⟨rfl, next⟩ := right
  refine ⟨?_, ?_⟩
  · rw [ledger_append, held_append]
  · rw [ledger_append]
    exact lawful.append next

/-- One registration at most for each signal. -/
def Distinct (registrations : List Registration) : Prop :=
  (registrations.map Registration.signal).Nodup

theorem subscribe_leads (answer : SignalResult ℕ) (signal : SignalId)
    (registrations : List Registration) :
    Leads registrations (subscribeCalls answer signal registrations)
      (subscribe answer signal registrations).2 := by
  unfold subscribe subscribeCalls
  split_ifs with present full
  · exact Leads.refl registrations
  · exact Leads.refl registrations
  · cases h : answer.success? with
    | none => simp [Leads, ledger, ProviderCall.entry, h]
    | some subscription =>
      simp [Leads, ledger, ProviderCall.entry, h, held, Lawful]

variable {registrations : List Registration} (answers : ProviderAnswers)

theorem subscribe_distinct (answer : SignalResult ℕ) (signal : SignalId)
    (distinct : Distinct registrations) : Distinct (subscribe answer signal registrations).2 := by
  unfold subscribe
  split_ifs with present full
  · exact distinct
  · exact distinct
  · cases answer.success? with
    | none => exact distinct
    | some subscription =>
      refine List.nodup_cons.mpr ⟨?_, distinct⟩
      intro mem
      obtain ⟨registration, mem, same⟩ := List.mem_map.mp mem
      exact present (List.any_eq_true.mpr ⟨registration, mem, by simpa using same⟩)

theorem subscribeRules_leads (rules : List Rule) (registrations : List Registration) :
    Leads registrations (subscribeRulesCalls answers rules registrations)
      (subscribeRules answers rules registrations).2 := by
  induction rules generalizing registrations with
  | nil => exact Leads.refl registrations
  | cons rule rules ih =>
    have first := subscribe_leads (answers.subscribe rules.length) rule.signal registrations
    simp only [subscribeRulesCalls, subscribeRules]
    generalize subscribe (answers.subscribe rules.length) rule.signal registrations = result at *
    obtain ⟨status, registrations'⟩ := result
    cases status with
    | ok => exact first.trans (ih registrations')
    | _ => exact first.trans (Leads.refl registrations')

theorem subscribeRules_distinct (rules : List Rule) (distinct : Distinct registrations) :
    Distinct (subscribeRules answers rules registrations).2 := by
  induction rules generalizing registrations with
  | nil => exact distinct
  | cons rule rules ih =>
    have first := subscribe_distinct (answers.subscribe rules.length) rule.signal distinct
    simp only [subscribeRules]
    generalize subscribe (answers.subscribe rules.length) rule.signal registrations = result at *
    obtain ⟨status, registrations'⟩ := result
    cases status with
    | ok => exact ih first
    | _ => exact first

theorem unsubscribeAll_leads (registrations : List Registration) :
    Leads registrations (unsubscribeAllCalls answers registrations)
      (unsubscribeAll answers registrations).2 := by
  induction registrations with
  | nil => exact Leads.refl []
  | cons registration older ih =>
    unfold unsubscribeAll unsubscribeAllCalls
    split_ifs with ok
    · -- The newest registration is given back, and the removal goes on with the older ones.
      rw [ok]
      refine ⟨?_, ?_⟩
      · exact (held_release_newest registration older _).trans ih.1
      · refine ⟨by simp, ?_⟩
        simpa [ledger] using ih.2
    · -- The provider keeps the newest registration, and the removal stops.
      cases h : answers.unsubscribe older.length <;>
        simp_all [Leads, ledger, ProviderCall.entry, held, Lawful]

/-- What is left after a removal is a number of the oldest registrations. -/
theorem unsubscribeAll_suffix (registrations : List Registration) :
    (unsubscribeAll answers registrations).2 <:+ registrations := by
  induction registrations with
  | nil => exact List.suffix_rfl
  | cons registration older ih =>
    unfold unsubscribeAll
    split_ifs with ok
    · exact ih.trans (List.suffix_cons registration older)
    · exact List.suffix_rfl

/-- A removal succeeds exactly when nothing is left. -/
theorem unsubscribeAll_ok (registrations : List Registration) :
    (unsubscribeAll answers registrations).1 = .ok ↔
      (unsubscribeAll answers registrations).2 = [] := by
  induction registrations with
  | nil => simp [unsubscribeAll]
  | cons registration older ih =>
    unfold unsubscribeAll
    split_ifs with ok
    · exact ih
    · simp [ok]

/-- The subscriptions removed are the newest ones, and what is left follows them. -/
theorem removed_unsubscribeAll (registrations : List Registration) :
    removed (unsubscribeAllCalls answers registrations) ++
        (unsubscribeAll answers registrations).2.map Registration.subscription =
      registrations.map Registration.subscription := by
  induction registrations with
  | nil => rfl
  | cons registration older ih =>
    unfold unsubscribeAll unsubscribeAllCalls
    split_ifs with ok
    · rw [ok, List.map_cons, ← ih]
      rfl
    · cases h : answers.unsubscribe older.length <;>
        simp_all [removed, ledger, ProviderCall.entry, Entry.released?]

/-- A removal whose calls all succeed leaves nothing. -/
theorem unsubscribeAll_eq_nil {answers : ProviderAnswers} (succeed : ∀ subscription status,
      .unsubscribe subscription status ∈ unsubscribeAllCalls answers registrations →
        status = .ok) : (unsubscribeAll answers registrations).2 = [] := by
  induction registrations with
  | nil => rfl
  | cons registration older ih =>
    have ok : answers.unsubscribe older.length = .ok :=
      succeed registration.subscription _ (by simp [unsubscribeAllCalls])
    rw [unsubscribeAll, if_pos ok]
    refine ih fun subscription status mem => succeed subscription status ?_
    rw [unsubscribeAllCalls, if_pos ok]
    exact List.mem_cons_of_mem _ mem

/-! ### One call on the engine -/

variable {catalog : SignalCatalogView} {e : Engine}

/-- A registered signal is registered once, and a detached engine has no registration. -/
structure Engine.Registered (e : Engine) : Prop where
  distinct : Distinct e.registrations
  detached : e.attached = false → e.registrations = []

/-- A configuration call keeps the registrations and the attachment. -/
theorem Configured.frame {result : Engine × ConfigStatus} (configured : Configured e result) :
    result.1.registrations = e.registrations ∧ result.1.attached = e.attached := by
  cases configured <;> exact ⟨rfl, rfl⟩

/-- The configuration and the evaluation keep the registrations and the attachment. -/
theorem step_frame (catalog : SignalCatalogView) (e : Engine) (call : Call)
    (attach : ∀ answers, call ≠ .attach answers) (detach : ∀ answers, call ≠ .detach answers) :
    (e.step catalog call).1.registrations = e.registrations ∧
      (e.step catalog call).1.attached = e.attached := by
  cases call with
  | attach answers => exact absurd rfl (attach answers)
  | detach answers => exact absurd rfl (detach answers)
  | addSink sink => exact (configured_addSink sink).frame
  | clear => exact configured_clear.frame
  | addStateRule config => exact (configured_addStateRule config).frame
  | addEventRule config => exact (configured_addEventRule config).frame
  | addRangeRule config => exact (configured_addRangeRule config).frame
  | addSampledStateRule config => exact (configured_addSampledStateRule config).frame
  | notice n => exact ⟨rfl, rfl⟩
  | samplePolledRules =>
    simp only [Engine.step, Engine.samplePolledRules]
    split_ifs <;> exact ⟨rfl, rfl⟩
  | sampleNext read =>
    simp only [Engine.step, Engine.sampleNext]
    split
    · exact ⟨rfl, rfl⟩
    · split <;> exact ⟨rfl, rfl⟩

/-- An attach that fails on a detached engine keeps what the rollback could not remove. -/
theorem attach_leads :
    Leads e.registrations (e.providerCalls (.attach answers))
      (e.attach answers).1.registrations := by
  unfold Engine.attach
  rw [Engine.providerCalls]
  split_ifs with attached
  · exact Leads.refl _
  · have made := subscribeRules_leads answers e.rules e.registrations
    rcases h : subscribeRules answers e.rules e.registrations with ⟨status, registrations⟩
    rw [h] at made
    cases status with
    | ok => exact made.trans (Leads.refl registrations)
    | _ => exact made.trans (unsubscribeAll_leads answers registrations)

theorem detach_leads :
    Leads e.registrations (e.providerCalls (.detach answers))
      (e.detach answers).1.registrations := by
  simp only [Engine.detach, Engine.providerCalls]
  cases e.attached with
  | false => exact Leads.refl _
  | true => exact unsubscribeAll_leads answers e.registrations

/-- **The step lemma**: a call takes the registrations that the engine records to those it
records next, by calls that give back only what is live. -/
theorem accounted_step (catalog : SignalCatalogView) (e : Engine) (call : Call) :
    Leads e.registrations (e.providerCalls call) (e.step catalog call).1.registrations := by
  cases call with
  | attach answers => exact attach_leads answers
  | detach answers => exact detach_leads answers
  | _ =>
    rw [(step_frame catalog e _ (by simp) (by simp)).1]
    exact Leads.refl e.registrations

theorem Distinct.suffix {newer older : List Registration} (distinct : Distinct newer)
    (suffix : older <:+ newer) : Distinct older :=
  distinct.sublist (suffix.sublist.map Registration.signal)

theorem Engine.Registered.attach (registered : e.Registered) (answers : ProviderAnswers) :
    (e.attach answers).1.Registered := by
  unfold Engine.attach
  split_ifs with attached
  · exact registered
  · have distinct := subscribeRules_distinct answers e.rules registered.distinct
    generalize subscribeRules answers e.rules e.registrations = result at *
    obtain ⟨status, registrations⟩ := result
    cases status with
    | ok => exact ⟨distinct, fun detached => by simp at detached⟩
    | _ =>
      refine ⟨distinct.suffix (unsubscribeAll_suffix answers registrations), fun detached => ?_⟩
      exact (unsubscribeAll_ok answers registrations).mp (by simpa using detached)

theorem Engine.Registered.detach (registered : e.Registered) (answers : ProviderAnswers) :
    (e.detach answers).1.Registered := by
  unfold Engine.detach
  split_ifs with attached
  · exact registered
  · refine ⟨registered.distinct.suffix (unsubscribeAll_suffix answers _), fun detached => ?_⟩
    exact (unsubscribeAll_ok answers e.registrations).mp (by simpa using detached)

theorem Engine.Registered.step (registered : e.Registered) (catalog : SignalCatalogView)
    (call : Call) : (e.step catalog call).1.Registered := by
  by_cases attach : ∃ answers, call = .attach answers
  · obtain ⟨answers, rfl⟩ := attach
    exact registered.attach answers
  by_cases detach : ∃ answers, call = .detach answers
  · obtain ⟨answers, rfl⟩ := detach
    exact registered.detach answers
  · obtain ⟨registrations, attached⟩ := step_frame catalog e call (not_exists.mp attach)
      (not_exists.mp detach)
    refine ⟨?_, ?_⟩
    · rw [registrations]
      exact registered.distinct
    · rw [registrations, attached]
      exact registered.detached

/-- A failed attach whose rollback succeeds leaves a detached engine without registrations. -/
theorem attach_rolled_back {answers : ProviderAnswers} (detached : e.attached = false)
    (failed : (e.attach answers).2 ≠ .ok)
    (succeed : ∀ subscription status,
      .unsubscribe subscription status ∈ e.providerCalls (.attach answers) → status = .ok) :
    (e.attach answers).1.attached = false ∧ (e.attach answers).1.registrations = [] := by
  simp only [Engine.attach, Engine.providerCalls, detached, Bool.false_eq_true, ↓reduceIte]
    at failed succeed ⊢
  generalize subscribeRules answers e.rules e.registrations = result at *
  obtain ⟨status, registrations⟩ := result
  cases status with
  | ok => exact absurd rfl failed
  | _ =>
    have nothing : (unsubscribeAll answers registrations).2 = [] :=
      unsubscribeAll_eq_nil fun subscription status mem =>
        succeed subscription status (List.mem_append_right _ mem)
    have ok := (unsubscribeAll_ok answers registrations).mpr nothing
    exact ⟨by simp [ok], nothing⟩

/-! ### Retried detach calls -/

/-- The engine after the first `n` detach calls of a sequence. -/
def afterDetaches (catalog : SignalCatalogView) (e : Engine) (tries : ℕ → ProviderAnswers)
    (n : ℕ) : Engine :=
  Machine.after (Engine.step catalog) e (detachCalls tries n)

/-- The calls at the provider of the first `n` detach calls of a sequence. -/
def callsOfDetaches (catalog : SignalCatalogView) (e : Engine) (tries : ℕ → ProviderAnswers)
    (n : ℕ) : List ProviderCall :=
  providerCalls (Machine.moves (Engine.step catalog) e (detachCalls tries n))

variable {tries : ℕ → ProviderAnswers}

theorem afterDetaches_succ (catalog : SignalCatalogView) (e : Engine)
    (tries : ℕ → ProviderAnswers) (n : ℕ) :
    afterDetaches catalog e tries (n + 1) =
      ((afterDetaches catalog e tries n).detach (tries n)).1 := by
  simp [afterDetaches, detachCalls, List.range_succ, Engine.step]

theorem callsOfDetaches_succ (catalog : SignalCatalogView) (e : Engine)
    (tries : ℕ → ProviderAnswers) (n : ℕ) :
    callsOfDetaches catalog e tries (n + 1) =
      callsOfDetaches catalog e tries n ++
        (afterDetaches catalog e tries n).providerCalls (.detach (tries n)) := by
  simp [callsOfDetaches, afterDetaches, providerCalls, detachCalls, List.range_succ]

/-- The subscriptions that one detach removes are the newest, and what is left follows them. -/
theorem removed_detach (e : Engine) (answers : ProviderAnswers) :
    removed (e.providerCalls (.detach answers)) ++
        (e.detach answers).1.registrations.map Registration.subscription =
      e.registrations.map Registration.subscription := by
  simp only [Engine.detach, Engine.providerCalls]
  cases e.attached with
  | false => rfl
  | true => exact removed_unsubscribeAll answers e.registrations

/-- Detach calls remove the registrations in order, each at most once. -/
theorem removed_detaches (catalog : SignalCatalogView) (e : Engine)
    (tries : ℕ → ProviderAnswers) (n : ℕ) :
    removed (callsOfDetaches catalog e tries n) ++
        (afterDetaches catalog e tries n).registrations.map Registration.subscription =
      e.registrations.map Registration.subscription := by
  induction n with
  | zero => rfl
  | succ n ih =>
    rw [callsOfDetaches_succ, afterDetaches_succ, ← ih,
      ← removed_detach (afterDetaches catalog e tries n) (tries n)]
    simp [removed, List.append_assoc]

theorem registered_detaches (registered : e.Registered) (n : ℕ) :
    (afterDetaches catalog e tries n).Registered := by
  induction n with
  | zero => exact registered
  | succ n ih =>
    rw [afterDetaches_succ]
    exact ih.detach (tries n)

theorem length_detach_le (e : Engine) (answers : ProviderAnswers) :
    (e.detach answers).1.registrations.length ≤ e.registrations.length := by
  unfold Engine.detach
  split_ifs
  · exact le_rfl
  · exact (unsubscribeAll_suffix answers e.registrations).length_le

theorem length_detaches_antitone (catalog : SignalCatalogView) (e : Engine)
    (tries : ℕ → ProviderAnswers) :
    Antitone fun n => (afterDetaches catalog e tries n).registrations.length := by
  refine antitone_nat_of_succ_le fun n => ?_
  rw [afterDetaches_succ]
  exact length_detach_le _ _

/-- A detach whose first removal succeeds leaves fewer registrations. -/
theorem length_detach_lt {answers : ProviderAnswers} {n : ℕ} (attached : e.attached = true)
    (length : e.registrations.length = n + 1) (ok : answers.unsubscribe n = .ok) :
    (e.detach answers).1.registrations.length < n + 1 := by
  match h : e.registrations, length with
  | registration :: older, length =>
    have older_length : older.length = n := by simpa using length
    have fewer := (unsubscribeAll_suffix answers older).length_le
    simp only [Engine.detach, attached, h, unsubscribeAll, older_length, ok, Bool.not_true,
      Bool.false_eq_true, ↓reduceIte]
    omega

/-- **Retried detach calls remove everything**, when the provider does not refuse a removal
forever. The induction is on the registrations left at some call. -/
theorem detaches_drain (catalog : SignalCatalogView) (registered : e.Registered)
    (retriable : ∀ n k, ∃ m, k ≤ m ∧ (tries m).unsubscribe n = .ok) (k : ℕ) :
    ∃ m, k ≤ m ∧ (afterDetaches catalog e tries m).registrations = [] := by
  induction h : (afterDetaches catalog e tries k).registrations.length using
    Nat.strong_induction_on generalizing k with
  | _ length ih =>
    match length with
    | 0 => exact ⟨k, le_rfl, List.length_eq_zero_iff.mp h⟩
    | n + 1 =>
      obtain ⟨m, later, ok⟩ := retriable n k
      have atMost := length_detaches_antitone catalog e tries later
      simp only [h] at atMost
      rcases Nat.lt_or_eq_of_le atMost with fewer | same
      · -- Some registration has gone before the call that the provider accepts.
        obtain ⟨m', later', drained⟩ := ih _ fewer m rfl
        exact ⟨m', by omega, drained⟩
      · have attached : (afterDetaches catalog e tries m).attached = true := by
          by_contra detached
          have none_left := (registered_detaches registered m).detached (by simpa using detached)
          rw [none_left] at same
          simp at same
        have fewer := length_detach_lt attached same ok
        rw [← afterDetaches_succ] at fewer
        obtain ⟨m', later', drained⟩ := ih _ fewer (m + 1) rfl
        exact ⟨m', by omega, drained⟩

/-- A detach without registrations detaches. -/
theorem detach_of_nil (empty : e.registrations = []) :
    (e.detach answers).1.attached = false ∧ (e.detach answers).1.registrations = [] := by
  cases h : e.attached <;> simp [Engine.detach, h, empty, unsubscribeAll]

/-! ### Every run -/

/-- The engine reached by a run, and the calls at the provider on the way. -/
theorem accounted_run (catalog : SignalCatalogView) (calls : List Call) :
    Leads [] (providerCalls (Machine.moves (Engine.step catalog) {} calls))
        (Machine.after (Engine.step catalog) {} calls).registrations ∧
      (Machine.after (Engine.step catalog) {} calls).Registered := by
  refine Machine.invariant_moves
    (P := fun (e : Engine) moves => Leads [] (providerCalls moves) e.registrations ∧ e.Registered)
    ?_ ?_ calls
  · exact ⟨Leads.refl [], ⟨List.nodup_nil, fun _ => rfl⟩⟩
  rintro e moves call ⟨leads, registered⟩
  refine ⟨?_, registered.step catalog call⟩
  simpa [providerCalls] using leads.trans (accounted_step catalog e call)

/-- **The registrations of an engine**, for every catalog, every run and all answers of the
provider. The engine records the registrations that are live at the provider, at most one for each
signal and none while detached. The provider is asked to remove live registrations only, and no
subscription is removed more often than it was granted. An attach that fails and is rolled back
leaves nothing. Detach calls that follow remove what is left in order, each registration once, and
all of it when no removal is refused forever. -/
theorem subscriptions_accounted (catalog : SignalCatalogView) (calls : List Call) :
    let e := Machine.after (Engine.step catalog) {} calls
    let log := providerCalls (Machine.moves (Engine.step catalog) {} calls)
    live log = e.registrations ∧
      ((live log).map Registration.signal).Nodup ∧
      (e.attached = false → live log = []) ∧
      Lawful Registration.subscription [] (ledger log) ∧
      (∀ subscription, (removed log).count subscription ≤
        ((granted log).map Registration.subscription).count subscription) ∧
      (∀ answers, e.attached = false → (e.attach answers).2 ≠ .ok →
        (∀ subscription status,
          .unsubscribe subscription status ∈ e.providerCalls (.attach answers) → status = .ok) →
        (e.attach answers).1.attached = false ∧
          live (log ++ e.providerCalls (.attach answers)) = []) ∧
      ∀ tries : ℕ → ProviderAnswers,
        (∀ n, removed (callsOfDetaches catalog e tries n) ++
            (afterDetaches catalog e tries n).registrations.map Registration.subscription =
          e.registrations.map Registration.subscription) ∧
        ((∀ n k, ∃ m, k ≤ m ∧ (tries m).unsubscribe n = .ok) →
          ∃ n, (afterDetaches catalog e tries n).attached = false ∧
            live (log ++ callsOfDetaches catalog e tries n) = [] ∧
            removed (callsOfDetaches catalog e tries n) =
              e.registrations.map Registration.subscription) := by
  intro e log
  obtain ⟨⟨recorded, lawful⟩, registered⟩ := accounted_run catalog calls
  have live_eq : live log = e.registrations := recorded
  refine ⟨live_eq, ?_, ?_, lawful, ?_, ?_, fun tries => ⟨removed_detaches catalog e tries, ?_⟩⟩
  · rw [live_eq]
    exact registered.distinct
  · rw [live_eq]
    exact registered.detached
  · intro subscription
    have balance := count_balance lawful subscription
    rw [List.map_nil, List.count_nil, Nat.zero_add] at balance
    exact (Nat.le_add_right _ _).trans balance.ge
  · intro answers detached failed succeed
    obtain ⟨off, empty⟩ := attach_rolled_back detached failed succeed
    refine ⟨off, ?_⟩
    rw [live, ledger_append, held_append, recorded, (attach_leads answers).1]
    exact empty
  · intro retriable
    obtain ⟨m, -, drained⟩ := detaches_drain catalog registered retriable 0
    -- One more call finds nothing to remove and detaches the engine.
    have last := afterDetaches_succ catalog e tries m
    obtain ⟨off, empty⟩ := detach_of_nil (tries m) drained
    rw [← last] at off empty
    have gone := removed_detaches catalog e tries (m + 1)
    rw [empty, List.map_nil, List.append_nil] at gone
    refine ⟨m + 1, off, ?_, gone⟩
    have run := (accounted_run catalog (calls ++ detachCalls tries (m + 1))).1.1
    rw [Machine.moves_append, Machine.after_append] at run
    simp only [providerCalls, List.flatMap_append] at run
    exact run.trans empty

end AccessoryController.ActionEngine
