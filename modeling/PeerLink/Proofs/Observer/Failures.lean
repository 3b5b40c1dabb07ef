import Mathlib.Data.List.Nodup
import Mathlib.Data.List.Perm.Subperm
import PeerLink.Proofs.Observer.Told

/-!
Contract: how far an announcement gets when observers fail.

A failure ends the announcement, and no later call makes up for it: of the observers that wait, those
up to the first one that fails are told, and the others never are.

Owns: when a script fails, which observers an announcement reaches, and that these are told and no
others.

Does not own: the phases of a run.
-/

namespace PeerLink

/-! ## When a script fails -/

/-- The number of ids that can be taken from this one on; the last id is never handed out. -/
def SubscriptionId.supply (next : SubscriptionId) : Nat := count - 1 - next.value

/-- How many ids a script leaves over if it finds so many. There is no answer if it fails: by itself,
in an observer that it subscribes, or for want of an id. -/
def ObserverScript.leaves? : ObserverScript → Nat → Option Nat
  | .done, supply => some supply
  | .fail _, _ => none
  | .look rest, supply | .announce _ rest, supply | .unsubscribe _ rest, supply =>
      rest.leaves? supply
  | .subscribe _ _ _, 0 => none
  | .subscribe _ script rest, supply + 1 => (script.leaves? supply).bind rest.leaves?

namespace Announced

variable {state : Announced} {observer : ScriptedObserver}

/-- What a run leaves over, unless it failed. -/
def leaves? (outcome : Option String × Announced) : Option Nat :=
  match outcome with
  | (none, later) => some later.nextId.supply
  | (some _, _) => none

theorem supply_of_refused (refused : state.registry.subscribe? observer = none) :
    state.nextId.supply = 0 := by
  have following : state.nextId.next? = none := Option.map_eq_none_iff.mp refused
  unfold SubscriptionId.next? at following
  split at following
  · cases following
  · unfold SubscriptionId.supply
    omega

theorem supply_of_subscribed {id : SubscriptionId} {registry : Registry ScriptedObserver}
    (subscribed : state.registry.subscribe? observer = some (id, registry)) :
    state.nextId.supply = registry.nextId.supply + 1 := by
  obtain ⟨following, isNext, -⟩ := Option.map_eq_some_iff.mp subscribed
  obtain ⟨-, value, -⟩ := subscribe?_eq subscribed
  change state.nextId.next? = some following at isNext
  unfold SubscriptionId.next? at isNext
  split at isNext
  · unfold SubscriptionId.supply
    omega
  · cases isNext

end Announced

/-- A script fails exactly if it leaves nothing over. -/
theorem ObserverScript.leaves?_run (name : String) (script : ObserverScript) (state : Announced) :
    Announced.leaves? (script.run name state) = script.leaves? state.nextId.supply := by
  induction script generalizing name state with
  | done | fail => rfl
  | look rest inductionHypothesis | announce _ rest inductionHypothesis
  | unsubscribe _ rest inductionHypothesis => exact inductionHypothesis name _
  | subscribe inner script rest inside outside =>
      unfold ObserverScript.run
      cases subscribed : state.registry.subscribe? ⟨inner, script⟩ with
      | none =>
          rw [Announced.supply_of_refused subscribed]
          rfl
      | some entry =>
          obtain ⟨id, registry⟩ := entry
          rw [Announced.supply_of_subscribed subscribed, ObserverScript.leaves?]
          dsimp only
          have called := inside inner (({ state with nextId := registry.nextId }.note
            (.enrolled id inner)).note (.notified id inner state.record))
          change _ = script.leaves? registry.nextId.supply at called
          rw [← called]
          split
          · rename_i failure later ran
            rw [ran]
            rfl
          · rename_i later ran
            rw [ran]
            exact outside name _

/-! ## Whom an announcement reaches -/

/-- The observers that an announcement calls if it finds so many ids: all up to the first that
fails. -/
def reached : Nat → List (SubscriptionId × ScriptedObserver) →
    List (SubscriptionId × ScriptedObserver)
  | _, [] => []
  | supply, first :: rest =>
      first :: match first.2.script.leaves? supply with
        | some left => reached left rest
        | none => []

/-- Whether none of these observers fails if they are called one after the other and find so many
ids. -/
def harmless : Nat → List (SubscriptionId × ScriptedObserver) → Bool
  | _, [] => true
  | supply, first :: rest =>
      match first.2.script.leaves? supply with
      | some left => harmless left rest
      | none => false

/-- An observer by its id and its name. -/
def ScriptedObserver.enrolment (subscribed : SubscriptionId × ScriptedObserver) : Enrolment :=
  (subscribed.1, subscribed.2.name)

/-- Everybody is reached exactly if nobody fails before the last one. -/
theorem reached_eq_iff (supply : Nat) (observers : List (SubscriptionId × ScriptedObserver)) :
    reached supply observers = observers ↔ harmless supply observers.dropLast = true := by
  induction observers generalizing supply with
  | nil => exact iff_of_true rfl rfl
  | cons first rest inductionHypothesis =>
      cases rest with
      | nil =>
          refine iff_of_true ?_ rfl
          unfold reached
          split <;> rfl
      | cons second rest =>
          unfold reached
          rw [List.dropLast_cons_cons, List.cons.injEq, harmless]
          cases first.2.script.leaves? supply with
          | none => simp
          | some left =>
              rw [eq_self_iff_true, true_and]
              exact inductionHypothesis left

theorem isPrefix_reached (supply : Nat) (observers : List (SubscriptionId × ScriptedObserver)) :
    reached supply observers <+: observers := by
  induction observers generalizing supply with
  | nil => exact List.prefix_rfl
  | cons first rest inductionHypothesis =>
      unfold reached
      apply List.cons_prefix_cons.mpr
      refine ⟨rfl, ?_⟩
      split
      · exact inductionHypothesis _
      · exact List.nil_prefix

/-- A delivery calls those that it reaches, in order, and nobody else. -/
theorem Announced.leads_reached (observers : List (SubscriptionId × ScriptedObserver))
    (state : Announced) :
    Leads ((reached state.nextId.supply observers).map ScriptedObserver.enrolment) state
      (Registry.callEach call observers state).2 := by
  induction observers generalizing state with
  | nil => exact Leads.refl state
  | cons first rest inductionHypothesis =>
      have told := leads_call first state
      have leaves := first.2.script.leaves?_run first.2.name
        (state.note (.notified first.1 first.2.name state.record))
      change leaves? (call first state) = first.2.script.leaves? state.nextId.supply at leaves
      unfold Registry.callEach reached
      rw [← leaves]
      generalize call first state = outcome at told
      obtain ⟨_ | failure, later⟩ := outcome
      · exact told.trans (inductionHypothesis later)
      · exact told

namespace AudienceRun

/-- How often an observer was told a record. -/
def timesTold (run : AudienceRun) (enrolment : Enrolment) : Nat :=
  (notices run.audience.account).count enrolment

/-- The observers that the announcement of a record would reach now. -/
def reaches (run : AudienceRun) : List Enrolment :=
  (reached run.audience.registry.nextId.supply run.audience.registry.waiting).map
    ScriptedObserver.enrolment

theorem Unannounced.waiting_eq {run : AudienceRun} (quiet : Unannounced run) :
    run.audience.registry.waiting.map ScriptedObserver.enrolment = run.remaining := by
  obtain ⟨observers, waits, remaining⟩ := quiet.waits
  rw [waiting_of_waiting waits]
  exact remaining

/-- Of the observers that waited for the announcement, those it called were told, in order. -/
theorem Told.notices_of_waiting {start run : AudienceRun} {record : DisconnectRecord}
    {called : List Enrolment} {entries : List ObserverEntry}
    (told : Told start record called entries run) (quiet : Unannounced start) :
    (notices run.audience.account).filter (fun notice => notice.1.value < start.taken) = called := by
  rw [told.notices_eq quiet]
  apply told.aftermath.told_in_order _ (Nat.le_refl _)
  intro enrolment member
  exact quiet.value_lt (told.mem_called member).1

/-- The first announcement calls those that it reaches. -/
theorem Unannounced.announce_reaches {run : AudienceRun} (quiet : Unannounced run)
    (record : DisconnectRecord) :
    ∃ entries, Told run record run.reaches entries (run.after (.announce record)) := by
  obtain ⟨called, entries, told⟩ := quiet.announce record
  obtain ⟨observers, waits, -⟩ := quiet.waits
  have performed := Audience.announce_of_waiting record waits
  have audience : (run.after (.announce record)).audience = _ := congrArg Prod.snd performed
  obtain ⟨more, account, aftermath⟩ :=
    (Announced.leads_reached observers (run.audience.announcedWith record)).adds
  -- Both accounts of the announcement are the same, so both name the same observers as called.
  obtain rfl : entries = more := by
    have appended := told.account
    rw [audience] at appended
    exact List.append_cancel_left (appended.symm.trans account)
  have reaches : run.reaches = (reached run.audience.registry.nextId.supply observers).map
      ScriptedObserver.enrolment := by
    unfold AudienceRun.reaches
    rw [waiting_of_waiting waits]
  have early : ∀ enrolment ∈ run.reaches, enrolment.1.value < run.taken := by
    intro enrolment member
    have remains : enrolment ∈ run.remaining := by
      rw [← quiet.waiting_eq]
      exact ((isPrefix_reached _ _).map _).subset member
    exact quiet.value_lt (List.mem_filter.mp remains).1
  rw [reaches] at early
  have isReached := aftermath.told_in_order early (Nat.le_refl _)
  have isCalled := told.aftermath.told_in_order (fun enrolment member =>
    quiet.value_lt (told.mem_called member).1) (Nat.le_refl _)
  obtain rfl : called = run.reaches := isCalled.symm.trans (isReached.trans reaches.symm)
  exact ⟨entries, told⟩

/-- Whatever is called later, of the observers that waited for the first announcement those that it
reached are told, in order, and no others. -/
theorem Unannounced.told_of_waiting {run : AudienceRun} (quiet : Unannounced run)
    (record : DisconnectRecord) (later : List AudienceCall) :
    (notices ((run.after (.announce record)).play later).audience.account).filter
      (fun notice => notice.1.value < run.taken) = run.reaches := by
  obtain ⟨entries, told⟩ := quiet.announce_reaches record
  obtain ⟨more, last⟩ := told.play later
  exact last.notices_of_waiting quiet

theorem unannounced_of_record? {calls : List AudienceCall}
    (unannounced : (play {} calls).record? = none) : Unannounced (play {} calls) := by
  rcases inPhase_play calls with quiet | ⟨start, record, called, entries, -, told⟩
  · exact quiet
  · rw [told.record] at unannounced
    cases unannounced

theorem Unannounced.nodup_remaining {run : AudienceRun} (quiet : Unannounced run) :
    run.remaining.Nodup := by
  apply List.Nodup.filter
  apply List.Nodup.of_map Prod.fst
  rw [quiet.consecutive]
  exact nodup_idsUpTo run.taken

/-- Everybody who waits is reached exactly if nobody fails before the last one. -/
theorem Unannounced.remaining_subset_iff {run : AudienceRun} (quiet : Unannounced run) :
    run.remaining ⊆ run.reaches ↔
      harmless run.audience.registry.nextId.supply run.audience.registry.waiting.dropLast = true := by
  rw [← reached_eq_iff]
  constructor
  · intro everyone
    apply (isPrefix_reached _ _).eq_of_length
    apply Nat.le_antisymm (isPrefix_reached _ _).length_le
    have fewer := (List.subperm_of_subset quiet.nodup_remaining everyone).length_le
    rw [← quiet.waiting_eq, AudienceRun.reaches, List.length_map, List.length_map] at fewer
    exact fewer
  · intro everyone
    rw [← quiet.waiting_eq, AudienceRun.reaches, everyone]
    exact List.Subset.refl _

/-- Of the observers that wait for the first announcement, those up to the first that fails are told,
in order, and whatever is called later the others never are. So each of them is told exactly once if
and only if nobody fails before the last one. -/
theorem told_up_to_failure (calls : List AudienceCall) (record : DisconnectRecord)
    (later : List AudienceCall) (unannounced : (play {} calls).record? = none) :
    let run := play {} calls
    let ended := (run.after (.announce record)).play later
    (notices ended.audience.account).filter (fun notice => notice.1.value < run.taken) =
        run.reaches ∧
      run.reaches <+: run.remaining ∧
      ((∀ enrolment ∈ run.remaining, ended.timesTold enrolment = 1) ↔
        harmless run.audience.registry.nextId.supply
          run.audience.registry.waiting.dropLast = true) := by
  intro run ended
  have quiet : Unannounced run := unannounced_of_record? unannounced
  have told : (notices ended.audience.account).filter (fun notice => notice.1.value < run.taken) =
      run.reaches := quiet.told_of_waiting record later
  refine ⟨told, ?_, ?_⟩
  · rw [← quiet.waiting_eq]
    exact (isPrefix_reached _ _).map _
  · rw [← quiet.remaining_subset_iff, List.subset_def]
    refine forall₂_congr fun enrolment remains => ?_
    have early : enrolment.1.value < run.taken := quiet.value_lt (List.mem_filter.mp remains).1
    obtain ⟨entries, announced⟩ := quiet.announce_reaches record
    obtain ⟨more, last⟩ := announced.play later
    have distinct : (notices ended.audience.account).Nodup :=
      (last.nodup_notices quiet).of_map
    rw [← told, List.mem_filter, decide_eq_true early, and_iff_left rfl, timesTold]
    constructor
    · intro once
      exact List.count_pos_iff.mp (Nat.lt_of_lt_of_eq Nat.one_pos once.symm)
    · exact List.count_eq_one_of_mem distinct

/-- Observer 1 fails inside an observer that it subscribes; observer 2 still waits then. -/
def nestedFailure : List AudienceCall :=
  [.subscribe ⟨"zero", .look .done⟩, .subscribe ⟨"one", .subscribe "nested" (.fail "boom") .done⟩,
    .subscribe ⟨"two", .done⟩, .subscribe ⟨"three", .done⟩, .unsubscribe ⟨3⟩]

theorem told_up_to_failure_nestedFailure :
    let run := play {} nestedFailure
    let ended := (run.after (.announce ⟨some .shutdown, true⟩)).play
      [.announce .remoteClose, .subscribe ⟨"late", .done⟩]
    run.record? = none ∧ run.remaining = [(⟨0⟩, "zero"), (⟨1⟩, "one"), (⟨2⟩, "two")] ∧
      (notices ended.audience.account).filter (fun notice => notice.1.value < 4) =
        [(⟨0⟩, "zero"), (⟨1⟩, "one")] ∧
      ¬ ∀ enrolment ∈ run.remaining, ended.timesTold enrolment = 1 := by
  have unannounced : (play {} nestedFailure).record? = none := rfl
  obtain ⟨told, -, everyone⟩ := told_up_to_failure nestedFailure ⟨some .shutdown, true⟩
    [.announce .remoteClose, .subscribe ⟨"late", .done⟩] unannounced
  exact ⟨unannounced, rfl, told, fun all => Bool.false_ne_true (everyone.mp all)⟩

/-- An observer that fails, and one that waits behind it. -/
def failureAhead : List AudienceCall :=
  [.subscribe ⟨"ahead", .fail "boom"⟩, .subscribe ⟨"behind", .done⟩]

/-- The observer behind the one that fails waits for the first announcement and is never told. -/
theorem untold_after_failure :
    let run := play {} failureAhead
    run.record? = none ∧ (⟨1⟩, "behind") ∈ run.remaining ∧
      ∀ record later,
        ((run.after (.announce record)).play later).timesTold (⟨1⟩, "behind") = 0 := by
  have quiet : Unannounced (play {} failureAhead) := unannounced_of_record? rfl
  refine ⟨rfl, by decide, fun record later => List.count_eq_zero.mpr fun member => ?_⟩
  have among : (⟨1⟩, "behind") ∈ (play {} failureAhead).reaches := by
    rw [← quiet.told_of_waiting record later]
    exact List.mem_filter.mpr ⟨member, by decide⟩
  revert among
  decide

end AudienceRun

end PeerLink
