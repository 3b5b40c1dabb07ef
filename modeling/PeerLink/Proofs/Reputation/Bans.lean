import PeerLink.Proofs.Reputation.Isolation

/-!
Contract: who is banned.

A ban is stored with the verdict that drops a peer. A later ban of the same peer takes its place, and
nothing else does: adjustments move the score alone, and pruning leaves an entry whose ban is running.
So as long as no stored ban runs out, the banned peers are those that were dropped.

Owns: the ban that is stored for a peer, runs in which no ban runs out, and who may not be dialled at
the end of one.

Does not own: the verdicts.
-/

namespace PeerLink.Reputation

/-- A ban is stored with a verdict to disconnect, and with no other. -/
theorem Standing.bannedUntil_adjust (standing : Standing) (policy : Policy) (now : Instant)
    (change : Int) :
    (standing.adjust policy now change).2.bannedUntil =
      if (standing.adjust policy now change).1 = .disconnect then
        Instant.after? now policy.banPeriodSecs
      else standing.bannedUntil := by
  unfold adjust
  dsimp only
  split
  · cases ends : Instant.after? now policy.banPeriodSecs <;> rfl
  · rfl

theorem Instant.eq_of_after? {now deadline : Instant} {seconds : Nat}
    (ends : now.after? seconds = some deadline) : deadline = now + seconds * nanosPerSecond := by
  unfold after? at ends
  split at ends
  · exact (Option.some.inj ends).symm
  · cases ends

/-- A verdict to disconnect comes with a ban that ends within the clock's range. -/
theorem Standing.after?_of_disconnect {standing : Standing} {policy : Policy} {now : Instant}
    {change : Int} (drops : (standing.adjust policy now change).1 = .disconnect) :
    Instant.after? now policy.banPeriodSecs =
      some (now + policy.banPeriodSecs * nanosPerSecond) := by
  unfold adjust at drops
  dsimp only at drops
  split at drops
  · cases ends : Instant.after? now policy.banPeriodSecs with
    | some deadline => rw [Instant.eq_of_after? ends]
    | none =>
        rw [ends] at drops
        cases drops
  · cases drops

namespace Ledger

/-- When the ban stored for a peer ends, if one is stored. -/
def banEnd? (ledger : Ledger) (peer : PeerId) : Option Instant :=
  (ledger.find? peer).bind Standing.bannedUntil

theorem allowsDialling_eq_false_iff {ledger : Ledger} {now : Instant} {address : PeerAddress} :
    ledger.allowsDialling now address = false ↔
      ∃ deadline, ledger.banEnd? address.peerId = some deadline ∧ now < deadline := by
  unfold allowsDialling banEnd? Standing.isBanned
  cases ledger.find? address.peerId with
  | none => simp
  | some standing => cases banned : standing.bannedUntil <;> simp [banned]

theorem distinct_fresh (policy : Policy) : Distinct { policy := policy } := List.nodup_nil

section OneStep

variable {ledger : Ledger}

/-- Pruning stores no ban. -/
theorem banEnd?_of_prune (distinct : ledger.Distinct) {looked : Instant} {peer : PeerId}
    {deadline : Instant} (stored : (ledger.prune looked).banEnd? peer = some deadline) :
    ledger.banEnd? peer = some deadline := by
  unfold banEnd? at stored ⊢
  rcases find?_prune distinct looked peer with same | filtered
  · rw [← same]
    exact stored
  · rw [filtered] at stored
    cases found : ledger.find? peer with
    | none =>
        rw [found] at stored
        cases stored
    | some standing =>
        rw [found, Option.filter_some] at stored
        split at stored
        · exact stored
        · cases stored

/-- Pruning leaves a ban that is running. -/
theorem banEnd?_prune (distinct : ledger.Distinct) (looked : Instant) (peer : PeerId)
    (lasts : ∀ deadline, ledger.banEnd? peer = some deadline → looked < deadline) :
    (ledger.prune looked).banEnd? peer = ledger.banEnd? peer := by
  cases stored : ledger.banEnd? peer with
  | none =>
      cases left : (ledger.prune looked).banEnd? peer with
      | none => rfl
      | some deadline =>
          rw [banEnd?_of_prune distinct left] at stored
          cases stored
  | some deadline =>
      have running := lasts deadline stored
      unfold banEnd? at stored ⊢
      cases found : ledger.find? peer with
      | none =>
          rw [found] at stored
          cases stored
      | some standing =>
          rw [found] at stored
          have informative : standing.isStale looked = false := by
            have banned : standing.bannedUntil = some deadline := stored
            simp [Standing.isStale, Standing.isBanned, banned, running]
          rcases find?_prune distinct looked peer with same | filtered
          · rw [same, found]
            exact stored
          · rw [filtered, found, Option.filter_some, informative]
            exact stored

theorem banEnd?_adjust (ledger : Ledger) (looked now : Instant) (address : PeerAddress)
    (adjustment : Adjustment) (peer : PeerId) :
    (ledger.adjust looked now address adjustment).ledger.banEnd? peer =
      if peer = address.peerId ∧
          (ledger.adjust looked now address adjustment).verdict = .disconnect then
        some (now + ledger.policy.banPeriodSecs * nanosPerSecond)
      else (ledger.prune looked).banEnd? peer := by
  have found := find?_adjust ledger looked now address adjustment peer
  by_cases same : peer = address.peerId
  · subst same
    rw [if_pos rfl] at found
    rw [banEnd?, found]
    have banned := Standing.bannedUntil_adjust
      (((ledger.prune looked).find? address.peerId).getD {}) ledger.policy now adjustment.change
    by_cases drops : (ledger.adjust looked now address adjustment).verdict = .disconnect
    · rw [if_pos ⟨rfl, drops⟩, ← Standing.after?_of_disconnect drops]
      exact banned.trans (if_pos drops)
    · rw [if_neg fun both => drops both.2]
      refine (banned.trans (if_neg drops)).trans ?_
      unfold banEnd?
      cases (ledger.prune looked).find? address.peerId <;> rfl
  · rw [if_neg same] at found
    rw [if_neg fun both => same both.1, banEnd?, found]
    rfl

end OneStep

/-! ## Runs -/

/-- The ledger after a run. -/
def after (ledger : Ledger) : List Step → Ledger
  | [] => ledger
  | step :: rest => (ledger.answer step).2.after rest

/-- No ban that is stored runs out while the steps are taken. -/
def KeepsBans (ledger : Ledger) : List Step → Prop
  | [] => True
  | step :: rest =>
      (∀ peer deadline, ledger.banEnd? peer = some deadline →
        ∀ reading ∈ step.readings, reading < deadline) ∧
      (ledger.answer step).2.KeepsBans rest

theorem keepsBans_append {ledger : Ledger} {earlier later : List Step} :
    ledger.KeepsBans (earlier ++ later) ↔
      ledger.KeepsBans earlier ∧ (ledger.after earlier).KeepsBans later := by
  induction earlier generalizing ledger with
  | nil => exact (iff_of_eq (true_and _)).symm
  | cons step rest inductionHypothesis =>
      simp only [List.cons_append, KeepsBans, after, inductionHypothesis, and_assoc]

/-- The verdict for a peer is to disconnect it. -/
def Drops (peer : PeerId) (answers : List (PeerId × Answer)) : Prop :=
  (peer, .verdict .disconnect) ∈ answers

section Runs

variable {ledger : Ledger} (peer : PeerId)

/-- A step stores a ban for a peer exactly if it drops the peer, and takes no ban away. -/
theorem isSome_banEnd?_answer (distinct : ledger.Distinct) (step : Step)
    (lasts : ∀ peer deadline, ledger.banEnd? peer = some deadline →
      ∀ reading ∈ step.readings, reading < deadline) :
    ((ledger.answer step).2.banEnd? peer).isSome ↔
      (ledger.banEnd? peer).isSome ∨ Drops peer [(step.peer, (ledger.answer step).1)] := by
  cases step with
  | adjust looked now address adjustment =>
      have kept := banEnd?_prune distinct looked peer fun deadline stored =>
        lasts peer deadline stored looked List.mem_cons_self
      have adjusted := ledger.banEnd?_adjust looked now address adjustment peer
      rw [kept] at adjusted
      show ((ledger.adjust looked now address adjustment).ledger.banEnd? peer).isSome ↔ _
      rw [adjusted]
      split
      · rename_i dropped
        simp [Drops, Step.peer, answer, dropped.1, dropped.2]
      · rename_i other
        simp only [Drops, Step.peer, answer, List.mem_singleton, Prod.mk.injEq, Answer.verdict.injEq]
        refine (or_iff_left fun dropped => other ⟨dropped.1, dropped.2.symm⟩).symm
  | score target => simp [Drops, answer]
  | mayDial now address => simp [Drops, answer]

/-- While no ban runs out, a ban is stored for exactly the peers that were dropped. -/
theorem isSome_banEnd?_after (distinct : ledger.Distinct) (steps : List Step)
    (lasting : ledger.KeepsBans steps) :
    ((ledger.after steps).banEnd? peer).isSome ↔
      (ledger.banEnd? peer).isSome ∨ Drops peer (ledger.answers steps) := by
  induction steps generalizing ledger with
  | nil => simp [after, Drops, answers]
  | cons step rest inductionHypothesis =>
      have later := inductionHypothesis (distinct_answer distinct step) lasting.2
      have here := isSome_banEnd?_answer peer distinct step lasting.1
      unfold after answers
      rw [later, here, or_assoc]
      simp only [Drops, List.mem_cons, List.not_mem_nil, or_false]

/-- A ban without length has run out by the next reading of the clock. -/
theorem banEnd?_le_of_momentary (distinct : ledger.Distinct)
    (momentary : ledger.policy.banPeriodSecs = 0) {clock : Instant} (steps : List Step)
    (expired : ∀ deadline, ledger.banEnd? peer = some deadline → deadline ≤ clock)
    {now : Instant} (forward : (clock :: (steps.flatMap Step.readings ++ [now])).Pairwise (· ≤ ·))
    (deadline : Instant) (stored : (ledger.after steps).banEnd? peer = some deadline) :
    deadline ≤ now := by
  induction steps generalizing ledger clock with
  | nil =>
      have passes : clock ≤ now := by simpa using forward
      exact Nat.le_trans (expired deadline stored) passes
  | cons step rest inductionHypothesis =>
      have laterDistinct := distinct_answer distinct step
      have laterMomentary : (ledger.answer step).2.policy.banPeriodSecs = 0 := by
        rw [policy_answer]
        exact momentary
      cases step with
      | adjust looked later address adjustment =>
          simp only [List.flatMap_cons, Step.readings, List.cons_append, List.nil_append] at forward
          have passes : clock ≤ later := (List.pairwise_cons.mp forward).1 later (by simp)
          refine inductionHypothesis laterDistinct laterMomentary ?_
            (List.pairwise_cons.mp (List.pairwise_cons.mp forward).2).2 stored
          intro deadline held
          have adjusted := ledger.banEnd?_adjust looked later address adjustment peer
          rw [momentary, Nat.zero_mul, Nat.add_zero] at adjusted
          rw [show ((ledger.answer (.adjust looked later address adjustment)).2.banEnd? peer) = _ from
            adjusted] at held
          split at held
          · exact Nat.le_of_eq (Option.some.inj held).symm
          · exact Nat.le_trans (expired deadline (banEnd?_of_prune distinct held)) passes
      | score target => exact inductionHypothesis laterDistinct laterMomentary expired forward stored
      | mayDial later address =>
          simp only [List.flatMap_cons, Step.readings, List.cons_append, List.nil_append] at forward
          have passes : clock ≤ later := (List.pairwise_cons.mp forward).1 later (by simp)
          exact inductionHypothesis laterDistinct laterMomentary
            (fun deadline held => Nat.le_trans (expired deadline held) passes)
            (List.pairwise_cons.mp forward).2 stored

/-- As long as the clock stands still, no ban of some length runs out. -/
theorem keepsBans_of_still (now : Instant) (distinct : ledger.Distinct)
    (lengthy : 0 < ledger.policy.banPeriodSecs)
    (running : ∀ peer deadline, ledger.banEnd? peer = some deadline → now < deadline)
    (steps : List Step) (still : ∀ reading ∈ steps.flatMap Step.readings, reading = now) :
    ledger.KeepsBans steps := by
  induction steps generalizing ledger with
  | nil => trivial
  | cons step rest inductionHypothesis =>
      rw [List.flatMap_cons] at still
      have here (reading : Instant) (member : reading ∈ step.readings) : reading = now :=
        still reading (List.mem_append_left _ member)
      have laterLengthy : 0 < (ledger.answer step).2.policy.banPeriodSecs := by
        rw [policy_answer]
        exact lengthy
      refine ⟨?_, inductionHypothesis (distinct_answer distinct step) laterLengthy ?_
        fun reading member => still reading (List.mem_append_right _ member)⟩
      · intro peer deadline stored reading member
        rw [here reading member]
        exact running peer deadline stored
      · intro peer deadline stored
        cases step with
        | adjust looked later address adjustment =>
            rw [show ((ledger.answer (.adjust looked later address adjustment)).2.banEnd? peer) = _
              from ledger.banEnd?_adjust looked later address adjustment peer] at stored
            split at stored
            · obtain rfl := here later (by simp [Step.readings])
              rw [← Option.some.inj stored]
              exact Nat.lt_add_of_pos_right (Nat.mul_pos lengthy (by decide))
            · exact running peer deadline (banEnd?_of_prune distinct stored)
        | score target => exact running peer deadline stored
        | mayDial later address => exact running peer deadline stored

end Runs

end Ledger

/-- As long as no ban runs out by the passage of time, the peers that may not be dialled are those
that were dropped at some time before, whatever happened to them or to others since. A ban without
length is over at once, so under such a policy every peer may be dialled. -/
theorem barred_iff_dropped (policy : Policy) (steps : List Step) (now : Instant)
    (address : PeerAddress) (forward : Forward (steps ++ [.mayDial now address]))
    (lasting : 0 < policy.banPeriodSecs →
      Ledger.KeepsBans { policy := policy } (steps ++ [.mayDial now address])) :
    (Ledger.after { policy := policy } steps).allowsDialling now address = false ↔
      0 < policy.banPeriodSecs ∧
        (address.peerId, .verdict .disconnect) ∈ Ledger.answers { policy := policy } steps := by
  have distinct := Ledger.distinct_fresh policy
  rw [Ledger.allowsDialling_eq_false_iff]
  rcases Nat.eq_zero_or_pos policy.banPeriodSecs with momentary | lengthy
  · constructor
    · rintro ⟨deadline, stored, running⟩
      have readings := forward_from_zero forward
      rw [List.flatMap_append] at readings
      have expired := Ledger.banEnd?_le_of_momentary address.peerId distinct momentary steps nofun readings
        deadline stored
      exact absurd running (Nat.not_lt.mpr expired)
    · rintro ⟨lengthy, -⟩
      exact absurd momentary (Nat.ne_of_gt lengthy)
  · have kept := Ledger.keepsBans_append.mp (lasting lengthy)
    have stored := Ledger.isSome_banEnd?_after address.peerId distinct steps kept.1
    constructor
    · rintro ⟨deadline, held, -⟩
      exact ⟨lengthy, (stored.mp (by rw [held]; rfl)).resolve_left nofun⟩
    · rintro ⟨-, dropped⟩
      obtain ⟨deadline, held⟩ := Option.isSome_iff_exists.mp (stored.mpr (.inr dropped))
      exact ⟨deadline, held, kept.2.1 address.peerId deadline held now (by simp [Step.readings])⟩

/-- At one and the same reading of the clock, peer `a` is dropped; later it is rewarded until its score
is high, falls back to 0, and every adjustment of peer `b` prunes. -/
def forgivenInVain : List Step :=
  [.adjust 5 5 ⟨"a", "/one"⟩ .largePenalty, .adjust 5 5 ⟨"a", "/one"⟩ .largePenalty,
    .adjust 5 5 ⟨"b", "/one"⟩ .smallReward, .adjust 5 5 ⟨"a", "/two"⟩ .largeReward,
    .mayDial 5 ⟨"b", "/one"⟩, .adjust 5 5 ⟨"a", "/two"⟩ .largePenalty,
    .adjust 5 5 ⟨"b", "/one"⟩ .smallPenalty, .adjust 5 5 ⟨"b", "/one"⟩ .largeReward]

theorem barred_iff_dropped_forgivenInVain :
    Forward (forgivenInVain ++ [.mayDial 5 ⟨"a", "/three"⟩]) ∧
      Ledger.KeepsBans { policy := crowded } (forgivenInVain ++ [.mayDial 5 ⟨"a", "/three"⟩]) ∧
      (Ledger.after { policy := crowded } forgivenInVain).score "a" = 0 ∧
      ("a", .verdict .disconnect) ∈ Ledger.answers { policy := crowded } forgivenInVain ∧
      (Ledger.after { policy := crowded } forgivenInVain).allowsDialling 5 ⟨"a", "/three"⟩ =
        false := by
  have forward : Forward (forgivenInVain ++ [.mayDial 5 ⟨"a", "/three"⟩]) := by
    unfold Forward
    decide
  have lasting : Ledger.KeepsBans { policy := crowded }
      (forgivenInVain ++ [.mayDial 5 ⟨"a", "/three"⟩]) :=
    Ledger.keepsBans_of_still 5 (Ledger.distinct_fresh crowded) (by decide) nofun _ (by decide)
  have dropped : ("a", .verdict .disconnect) ∈
      Ledger.answers { policy := crowded } forgivenInVain := by decide +kernel
  exact ⟨forward, lasting, by decide +kernel, dropped,
    (barred_iff_dropped crowded forgivenInVain 5 ⟨"a", "/three"⟩ forward fun _ => lasting).mpr
      ⟨by decide, dropped⟩⟩

end PeerLink.Reputation
