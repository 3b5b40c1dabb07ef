import PeerLink.Proofs.Reputation.Bans

/-!
Contract: the range that scores stay in.

Acceptable settings put the neutral score above the threshold and not above the maximum. Every
adjustment then leaves a score between the two: a kept score is above the threshold and capped, and a
dropped one is neutral again. A score in that range can only be brought down to the threshold by a
penalty, so rewards drop nobody and ban nobody.

Owns: the settings that keep scores in range, what an adjustment makes of a score, and the range of the
scores of a ledger.

Does not own: how many penalties a score stands; see `PeerLink.Proofs.Reputation.Penalties`.
-/

namespace PeerLink.Reputation

/-- The rules for scores that acceptable settings keep. -/
structure Policy.Acceptable (policy : Policy) : Prop where
  threshold : policy.disconnectThreshold < 0
  maxScore : 1 ≤ policy.maxScore

/-- A score above the threshold and not above the maximum. -/
def Policy.Admits (policy : Policy) (score : Int32) : Prop :=
  policy.disconnectThreshold < score ∧ score ≤ policy.maxScore

theorem Policy.Acceptable.admits_neutral {policy : Policy} (acceptable : policy.Acceptable) :
    policy.Admits 0 := by
  refine ⟨acceptable.threshold, ?_⟩
  have positive := Int32.le_iff_toInt_le.mp acceptable.maxScore
  rw [Int32.toInt_one] at positive
  rw [Int32.le_iff_toInt_le, Int32.toInt_zero]
  omega

/-! ## One standing -/

namespace Standing

variable {standing : Standing} {policy : Policy} {now : Instant} {change : Int}

theorem raised_le : standing.raised policy change ≤ policy.maxScore := by
  rw [Int32.le_iff_toInt_le, toInt_raised]
  exact Int.min_le_right _ _

/-- An adjustment keeps the peer with the raised score if that is above the threshold. If not, the
score is neutral again, and the peer is dropped unless the end of its ban is out of range. -/
theorem adjust_cases (standing : Standing) (policy : Policy) (now : Instant) (change : Int) :
    (policy.disconnectThreshold < standing.raised policy change ∧
      standing.adjust policy now change =
        (.keep, { standing with score := standing.raised policy change })) ∨
    (standing.raised policy change ≤ policy.disconnectThreshold ∧
      (standing.adjust policy now change).1 =
        (if (now.after? policy.banPeriodSecs).isSome then .disconnect else .clockOverflow) ∧
      (standing.adjust policy now change).2.score = 0) := by
  unfold adjust
  dsimp only
  by_cases falls : standing.raised policy change ≤ policy.disconnectThreshold
  · refine .inr ⟨falls, ?_⟩
    rw [if_pos falls]
    cases now.after? policy.banPeriodSecs <;> exact ⟨rfl, rfl⟩
  · refine .inl ⟨Int32.not_le.mp falls, ?_⟩
    rw [if_neg falls]

theorem admits_adjust (acceptable : policy.Acceptable) :
    policy.Admits (standing.adjust policy now change).2.score := by
  obtain ⟨above, kept⟩ | ⟨-, -, neutral⟩ := standing.adjust_cases policy now change
  · rw [kept]
    exact ⟨above, raised_le⟩
  · rw [neutral]
    exact acceptable.admits_neutral

/-- From a score above the threshold a reward does not lead to it. -/
theorem keep_of_reward (admitted : policy.Admits standing.score) (reward : 0 ≤ change) :
    (standing.adjust policy now change).1 = .keep := by
  obtain ⟨-, kept⟩ | ⟨falls, -⟩ := standing.adjust_cases policy now change
  · rw [kept]
  · have above := Int32.lt_iff_toInt_lt.mp admitted.1
    have capped := Int32.le_iff_toInt_le.mp admitted.2
    rw [Int32.le_iff_toInt_le, toInt_raised, toInt_saturate] at falls
    have highest := Int32.toInt_maxValue
    have inRange := standing.score.toInt_le
    omega

end Standing

/-! ## A ledger -/

namespace Ledger

variable {ledger : Ledger}

theorem score_getD (ledger : Ledger) (peer : PeerId) :
    ((ledger.find? peer).getD {}).score = ledger.score peer := by
  unfold score
  cases ledger.find? peer <;> rfl

/-- Pruning leaves every score as it is: it takes away neutral scores alone, and a peer without an
entry is neutral. -/
theorem score_prune (distinct : ledger.Distinct) (looked : Instant) (peer : PeerId) :
    (ledger.prune looked).score peer = ledger.score peer := by
  unfold score
  obtain same | filtered := find?_prune distinct looked peer
  · rw [same]
  · rw [filtered]
    cases ledger.find? peer with
    | none => rfl
    | some standing =>
        rw [Option.filter_some]
        split
        · rfl
        · rename_i stale
          simp only [Standing.isStale, Bool.not_eq_true', Bool.not_eq_false, Bool.and_eq_true,
            beq_iff_eq] at stale
          exact stale.1.symm

/-- The standing that an adjustment of a peer goes by. -/
def standingOf (ledger : Ledger) (looked : Instant) (peer : PeerId) : Standing :=
  ((ledger.prune looked).find? peer).getD {}

theorem score_standingOf (distinct : ledger.Distinct) (looked : Instant) (peer : PeerId) :
    (ledger.standingOf looked peer).score = ledger.score peer := by
  rw [standingOf, score_getD, score_prune distinct]

theorem verdict_adjust (ledger : Ledger) (looked now : Instant) (address : PeerAddress)
    (adjustment : Adjustment) :
    (ledger.adjust looked now address adjustment).verdict =
      ((ledger.standingOf looked address.peerId).adjust ledger.policy now adjustment.change).1 := rfl

theorem score_adjust (distinct : ledger.Distinct) (looked now : Instant) (address : PeerAddress)
    (adjustment : Adjustment) (peer : PeerId) :
    (ledger.adjust looked now address adjustment).ledger.score peer =
      if peer = address.peerId then
        ((ledger.standingOf looked peer).adjust ledger.policy now adjustment.change).2.score
      else ledger.score peer := by
  rw [score, find?_adjust]
  split
  · rename_i same
    rw [same]
    rfl
  · exact score_prune distinct looked peer

/-- Every score, also that of a peer without an entry, is above the threshold and not above the
maximum. -/
def InRange (ledger : Ledger) : Prop := ∀ peer, ledger.policy.Admits (ledger.score peer)

theorem inRange_fresh {policy : Policy} (acceptable : policy.Acceptable) :
    InRange { policy := policy } := fun _ => acceptable.admits_neutral

theorem inRange_answer (distinct : ledger.Distinct) (acceptable : ledger.policy.Acceptable)
    (inRange : ledger.InRange) (step : Step) : (ledger.answer step).2.InRange := by
  intro peer
  rw [policy_answer]
  cases step with
  | adjust looked now address adjustment =>
      show ledger.policy.Admits ((ledger.adjust looked now address adjustment).ledger.score peer)
      rw [score_adjust distinct]
      split
      · exact Standing.admits_adjust acceptable
      · exact inRange peer
  | score target => exact inRange peer
  | mayDial now address => exact inRange peer

theorem distinct_after (distinct : ledger.Distinct) (steps : List Step) :
    (ledger.after steps).Distinct := by
  induction steps generalizing ledger with
  | nil => exact distinct
  | cons step rest inductionHypothesis => exact inductionHypothesis (distinct_answer distinct step)

@[simp] theorem policy_after (ledger : Ledger) (steps : List Step) :
    (ledger.after steps).policy = ledger.policy := by
  induction steps generalizing ledger with
  | nil => rfl
  | cons step rest inductionHypothesis =>
      exact (inductionHypothesis (ledger.answer step).2).trans (policy_answer ledger step)

theorem inRange_after (distinct : ledger.Distinct) (acceptable : ledger.policy.Acceptable)
    (inRange : ledger.InRange) (steps : List Step) : (ledger.after steps).InRange := by
  induction steps generalizing ledger with
  | nil => exact inRange
  | cons step rest inductionHypothesis =>
      refine inductionHypothesis (distinct_answer distinct step) ?_
        (inRange_answer distinct acceptable inRange step)
      rw [policy_answer]
      exact acceptable

/-- With a verdict to keep the peer no ban is stored. -/
theorem banEnd?_of_keep (distinct : ledger.Distinct) {looked now : Instant} {address : PeerAddress}
    {adjustment : Adjustment}
    (kept : (ledger.adjust looked now address adjustment).verdict = .keep) {peer : PeerId}
    {deadline : Instant}
    (stored : (ledger.adjust looked now address adjustment).ledger.banEnd? peer = some deadline) :
    ledger.banEnd? peer = some deadline := by
  rw [banEnd?_adjust, kept, if_neg nofun] at stored
  exact banEnd?_of_prune distinct stored

end Ledger

theorem admits_after {policy : Policy} (acceptable : policy.Acceptable) (steps : List Step)
    (peer : PeerId) : policy.Admits ((Ledger.after { policy := policy } steps).score peer) := by
  have inRange := Ledger.inRange_after (Ledger.distinct_fresh policy) acceptable
    (Ledger.inRange_fresh acceptable) steps peer
  rw [Ledger.policy_after] at inRange
  exact inRange

/-- Under acceptable settings every score is above the threshold and not above the maximum, whatever
was done before. So a reward never drops the peer that it is for, and no peer is banned by it. -/
theorem scores_in_range (policy : Policy) (acceptable : policy.Acceptable) (steps : List Step) :
    (∀ peer, policy.disconnectThreshold < (Ledger.after { policy := policy } steps).score peer ∧
        (Ledger.after { policy := policy } steps).score peer ≤ policy.maxScore) ∧
      ∀ (looked now : Instant) (address : PeerAddress) (adjustment : Adjustment),
        adjustment.isPenalty = false →
          let ledger := Ledger.after { policy := policy } steps
          let adjusted := ledger.adjust looked now address adjustment
          adjusted.verdict = .keep ∧
            ∀ peer deadline, adjusted.ledger.banEnd? peer = some deadline →
              ledger.banEnd? peer = some deadline := by
  have distinct := Ledger.distinct_after (Ledger.distinct_fresh policy) steps
  refine ⟨admits_after acceptable steps, ?_⟩
  intro looked now address adjustment reward ledger adjusted
  have kept : adjusted.verdict = .keep := by
    have gain : 0 ≤ adjustment.change := by
      simpa [Adjustment.isPenalty] using reward
    rw [Ledger.verdict_adjust]
    refine Standing.keep_of_reward ?_ gain
    rw [Ledger.score_standingOf distinct, Ledger.policy_after]
    exact admits_after acceptable steps address.peerId
  exact ⟨kept, fun peer deadline => Ledger.banEnd?_of_keep distinct kept⟩

/-- The narrowest acceptable range, with a ban that soon ends beyond the clock's range. -/
def narrowest : Policy :=
  { disconnectThreshold := -1, maxScore := 1, banPeriodSecs := 9223372036854775807,
    maxTrackedPeers := 0 }

/-- Peer `a` is capped and dropped; later the drop of peer `b` fails for the clock, and `a` is pruned
and comes back. -/
def toBothEnds : List Step :=
  [.adjust 0 0 ⟨"a", "/one"⟩ .largeReward, .adjust 0 0 ⟨"a", "/one"⟩ .smallPenalty,
    .adjust 0 nanosPerSecond ⟨"b", "/one"⟩ .largePenalty,
    .adjust nanosPerSecond nanosPerSecond ⟨"a", "/two"⟩ .smallReward]

theorem scores_in_range_toBothEnds :
    narrowest.Acceptable ∧
      Ledger.answers { policy := narrowest } toBothEnds =
        [("a", .verdict .keep), ("a", .verdict .disconnect), ("b", .verdict .clockOverflow),
          ("a", .verdict .keep)] ∧
      (Ledger.after { policy := narrowest } toBothEnds).score "a" = 1 ∧
      narrowest.Admits ((Ledger.after { policy := narrowest } toBothEnds).score "b") ∧
      ((Ledger.after { policy := narrowest } toBothEnds).adjust nanosPerSecond nanosPerSecond
        ⟨"b", "/one"⟩ .smallReward).verdict = .keep := by
  have acceptable : narrowest.Acceptable := ⟨by decide, by decide⟩
  obtain ⟨inRange, rewarded⟩ := scores_in_range narrowest acceptable toBothEnds
  exact ⟨acceptable, by decide +kernel, by decide +kernel, inRange "b",
    (rewarded nanosPerSecond nanosPerSecond ⟨"b", "/one"⟩ .smallReward (by decide)).1⟩

end PeerLink.Reputation
