import PeerLink.Proofs.Reputation.Overflow
import PeerLink.Proofs.Reputation.Scores
import PeerLink.Total

/-!
Contract: how many penalties a score stands.

A penalty takes its points off the score, as the cap does not matter on the way down and sums are held
only at an end of the range that no threshold is below. So a peer that gets nothing but penalties is
dropped by the one with which they add up to the distance between its score and the threshold,
whatever happens to other peers in between and however often its own entry is pruned.

Owns: the adjustments and the verdicts that concern one peer, and the place of the first drop among
them.

Does not own: the range of scores; bans that end beyond the clock's range.
-/

namespace PeerLink.Reputation

/-- How many points an adjustment moves a score by. -/
def Adjustment.magnitude (adjustment : Adjustment) : Nat := adjustment.change.natAbs

theorem Adjustment.change_of_isPenalty {adjustment : Adjustment}
    (penalty : adjustment.isPenalty = true) :
    adjustment.change = -(adjustment.magnitude : Int) ∧ 0 < adjustment.magnitude := by
  have falls : adjustment.change < 0 := of_decide_eq_true penalty
  unfold magnitude
  omega

/-! ## Where penalties use up a reserve -/

/-- The place of the adjustment with which the magnitudes first add up to a reserve. -/
def exhausts? (reserve : Int) (adjustments : List Adjustment) : Option Nat :=
  (List.range adjustments.length).find? fun place =>
    reserve ≤ (total Adjustment.magnitude (adjustments.take (place + 1)) : Int)

theorem exhausts?_cons (reserve : Int) (adjustment : Adjustment) (rest : List Adjustment) :
    exhausts? reserve (adjustment :: rest) =
      if reserve ≤ adjustment.magnitude then some 0
      else (exhausts? (reserve - adjustment.magnitude) rest).map (· + 1) := by
  unfold exhausts?
  rw [List.length_cons, List.range_succ_eq_map, List.find?_cons, List.find?_map]
  by_cases atOnce : reserve ≤ adjustment.magnitude
  · simp [atOnce]
  · have later (place : Nat) :
        (reserve ≤ (total Adjustment.magnitude ((adjustment :: rest).take (place + 1 + 1)) : Int)) =
          (reserve - adjustment.magnitude ≤
            (total Adjustment.magnitude (rest.take (place + 1)) : Int)) := by
      rw [List.take_succ_cons, total_cons]
      exact propext (by omega)
    simp only [Function.comp_def, Nat.succ_eq_add_one, later]
    simp [atOnce]

/-- What adds up to the reserve in the end does so at some place. -/
theorem exhausts?_isSome {reserve : Int} (positive : 0 < reserve) {adjustments : List Adjustment}
    (enough : reserve ≤ total Adjustment.magnitude adjustments) :
    (exhausts? reserve adjustments).isSome := by
  induction adjustments generalizing reserve with
  | nil => exact absurd enough (Int.not_le.mpr positive)
  | cons adjustment rest inductionHypothesis =>
      rw [total_cons] at enough
      rw [exhausts?_cons]
      split
      · rfl
      · rw [Option.isSome_map]
        exact inductionHypothesis (by omega) (by omega)

/-! ## One penalty -/

namespace Standing

variable {standing : Standing} {policy : Policy} {now : Instant}

theorem toInt_raised_of_penalty (capped : standing.score ≤ policy.maxScore) (points : Nat) :
    (standing.raised policy (-points)).toInt =
      max Int32.minValue.toInt (standing.score.toInt - points) := by
  have below := Int32.le_iff_toInt_le.mp capped
  have highest := Int32.toInt_maxValue
  have inRange := standing.score.toInt_le
  have capInRange := policy.maxScore.minValue_le_toInt
  rw [toInt_raised, toInt_saturate]
  omega

/-- A penalty drops the peer exactly if it takes up what is left between score and threshold; if not,
it is taken off the score. -/
theorem adjust_penalty (capped : standing.score ≤ policy.maxScore)
    (fits : (now.after? policy.banPeriodSecs).isSome) (points : Nat) :
    (standing.score.toInt - policy.disconnectThreshold.toInt ≤ points ∧
      (standing.adjust policy now (-points)).1 = .disconnect) ∨
    (points < standing.score.toInt - policy.disconnectThreshold.toInt ∧
      (standing.adjust policy now (-points)).1 = .keep ∧
      (standing.adjust policy now (-points)).2.score.toInt = standing.score.toInt - points) := by
  have raised := toInt_raised_of_penalty capped points
  have lowest := policy.disconnectThreshold.minValue_le_toInt
  obtain ⟨above, kept⟩ | ⟨falls, dropped, -⟩ := standing.adjust_cases policy now (-points)
  · rw [Int32.lt_iff_toInt_lt, raised] at above
    refine .inr ⟨by omega, ?_⟩
    rw [kept]
    refine ⟨rfl, ?_⟩
    rw [raised]
    omega
  · rw [Int32.le_iff_toInt_le, raised] at falls
    rw [if_pos fits] at dropped
    exact .inl ⟨by omega, dropped⟩

end Standing

/-! ## What concerns one peer -/

def Question.adjustment? : Question → Option Adjustment
  | .adjust _ asked => some asked
  | .score | .mayDial _ => none

def Answer.verdict? : Answer → Option Verdict
  | .verdict given => some given
  | .score _ | .mayDial _ => none

/-- The adjustments of one peer, in order. -/
def adjustmentsOf (peer : PeerId) (steps : List Step) : List Adjustment :=
  (questionsOf peer steps).filterMap Question.adjustment?

namespace Ledger

variable {ledger : Ledger} {peer : PeerId}

/-- The verdicts on one peer, one for each of its adjustments. -/
def verdictsOn (ledger : Ledger) (peer : PeerId) (steps : List Step) : List Verdict :=
  (ledger.answersTo peer steps).filterMap Answer.verdict?

/-- A step that does not adjust the peer adds no verdict on it and leaves its score. -/
theorem verdictsOn_cons (distinct : ledger.Distinct) (peer : PeerId) (step : Step)
    (rest : List Step) :
    (∃ looked now address adjustment, step = .adjust looked now address adjustment ∧
      address.peerId = peer ∧
      ledger.verdictsOn peer (step :: rest) =
        (ledger.adjust looked now address adjustment).verdict ::
          (ledger.answer step).2.verdictsOn peer rest ∧
      adjustmentsOf peer (step :: rest) = adjustment :: adjustmentsOf peer rest) ∨
    (ledger.verdictsOn peer (step :: rest) = (ledger.answer step).2.verdictsOn peer rest ∧
      adjustmentsOf peer (step :: rest) = adjustmentsOf peer rest ∧
      (ledger.answer step).2.score peer = ledger.score peer) := by
  simp only [verdictsOn, answersTo, answers, adjustmentsOf, questionsOf, List.filter_cons]
  by_cases same : step.peer = peer
  · simp only [same, decide_true, ↓reduceIte, List.map_cons, List.filterMap_cons]
    cases step with
    | adjust looked now address adjustment =>
        exact .inl ⟨looked, now, address, adjustment, rfl, same, rfl, rfl⟩
    | score target => exact .inr ⟨rfl, rfl, rfl⟩
    | mayDial now address => exact .inr ⟨rfl, rfl, rfl⟩
  · simp only [same, decide_false, Bool.false_eq_true, ↓reduceIte]
    refine .inr ⟨trivial, trivial, ?_⟩
    cases step with
    | adjust looked now address adjustment =>
        exact (score_adjust distinct looked now address adjustment peer).trans
          (if_neg fun equal => same equal.symm)
    | score target => rfl
    | mayDial now address => rfl

/-- The points between the score of a peer and the threshold. -/
def reserve (ledger : Ledger) (peer : PeerId) : Int :=
  (ledger.score peer).toInt - ledger.policy.disconnectThreshold.toInt

/-- A penalty drops its peer exactly if it takes up the reserve; if not, it is taken off the reserve,
and the score is still capped. -/
theorem adjust_penalty (distinct : ledger.Distinct) (looked : Instant) {now : Instant}
    {address : PeerAddress} {adjustment : Adjustment} (penalty : adjustment.isPenalty = true)
    (capped : ledger.score address.peerId ≤ ledger.policy.maxScore)
    (fits : (now.after? ledger.policy.banPeriodSecs).isSome) :
    let adjusted := ledger.adjust looked now address adjustment
    (ledger.reserve address.peerId ≤ adjustment.magnitude ∧ adjusted.verdict = .disconnect) ∨
      (adjustment.magnitude < ledger.reserve address.peerId ∧ adjusted.verdict = .keep ∧
        adjusted.ledger.reserve address.peerId =
          ledger.reserve address.peerId - adjustment.magnitude ∧
        adjusted.ledger.score address.peerId ≤ adjusted.ledger.policy.maxScore) := by
  intro adjusted
  have verdict := ledger.verdict_adjust looked now address adjustment
  have later := (score_adjust distinct looked now address adjustment address.peerId).trans
    (if_pos rfl)
  rw [(Adjustment.change_of_isPenalty penalty).1] at verdict later
  have standing := score_standingOf distinct looked address.peerId
  have standingCapped : (ledger.standingOf looked address.peerId).score ≤ ledger.policy.maxScore := by
    rw [standing]
    exact capped
  have cases := Standing.adjust_penalty standingCapped fits adjustment.magnitude
  rw [← verdict, ← later, standing] at cases
  obtain dropped | ⟨left, kept, lowered⟩ := cases
  · exact .inl dropped
  · have samePolicy : adjusted.ledger.policy = ledger.policy := policy_prune looked
    refine .inr ⟨left, kept, ?_, ?_⟩
    · rw [reserve, reserve, samePolicy, lowered]
      omega
    · have below := Int32.le_iff_toInt_le.mp capped
      rw [samePolicy, Int32.le_iff_toInt_le, lowered]
      omega

/-- The first verdict to disconnect a peer that gets nothing but penalties is the one on the penalty
with which they use up its reserve. -/
theorem findIdx?_verdictsOn (distinct : ledger.Distinct)
    (capped : ledger.score peer ≤ ledger.policy.maxScore) (steps : List Step)
    (penalties : ∀ adjustment ∈ adjustmentsOf peer steps, adjustment.isPenalty = true)
    (fits : ∀ reading ∈ steps.flatMap Step.readings,
      (reading.after? ledger.policy.banPeriodSecs).isSome) :
    (ledger.verdictsOn peer steps).findIdx? (fun verdict => verdict = .disconnect) =
      exhausts? (ledger.reserve peer) (adjustmentsOf peer steps) := by
  induction steps generalizing ledger with
  | nil => rfl
  | cons step rest inductionHypothesis =>
      have laterDistinct := distinct_answer distinct step
      have laterPolicy := policy_answer ledger step
      have laterFits : ∀ reading ∈ rest.flatMap Step.readings,
          (reading.after? (ledger.answer step).2.policy.banPeriodSecs).isSome := by
        intro reading member
        rw [laterPolicy]
        refine fits reading ?_
        rw [List.flatMap_cons]
        exact List.mem_append_right _ member
      obtain ⟨looked, now, address, adjustment, rfl, rfl, verdicts, adjustments⟩ |
        ⟨verdicts, adjustments, sameScore⟩ := verdictsOn_cons distinct peer step rest
      · rw [adjustments] at penalties
        have laterPenalties := fun later member =>
          penalties later (List.mem_cons_of_mem adjustment member)
        have reading : (now.after? ledger.policy.banPeriodSecs).isSome :=
          fits now (by simp [Step.readings])
        rw [verdicts, adjustments, List.findIdx?_cons, exhausts?_cons]
        obtain ⟨enough, dropped⟩ | ⟨left, kept, lowered, laterCapped⟩ := adjust_penalty
          distinct looked (penalties adjustment List.mem_cons_self) capped reading
        · rw [dropped, if_pos enough]
          rfl
        · have later := inductionHypothesis laterDistinct laterCapped laterPenalties laterFits
          rw [kept, if_neg (Int.not_le.mpr left), ← lowered]
          exact congrArg (Option.map (· + 1)) later
      · rw [adjustments] at penalties
        have laterCapped : (ledger.answer step).2.score peer ≤
            (ledger.answer step).2.policy.maxScore := by
          rw [sameScore, laterPolicy]
          exact capped
        have later := inductionHypothesis laterDistinct laterCapped penalties laterFits
        rw [verdicts, adjustments, later, reserve, reserve, sameScore, laterPolicy]

end Ledger

/-- Under acceptable settings and as long as the ends of bans fit in the clock's range, a peer that from
some point on gets nothing but penalties is dropped for the first time by the penalty with which they
add up to the distance between its score at that point and the threshold. So the distance between the
maximum and the threshold is always enough, however high the peer was rewarded before. -/
theorem dropped_when_exhausted (policy : Policy) (acceptable : policy.Acceptable)
    (earlier later : List Step) (peer : PeerId)
    (penalties : ∀ adjustment ∈ adjustmentsOf peer later, adjustment.isPenalty = true)
    (fits : ∀ reading ∈ later.flatMap Step.readings,
      reading / nanosPerSecond + policy.banPeriodSecs < clockRange) :
    let ledger := Ledger.after { policy := policy } earlier
    (ledger.verdictsOn peer later).findIdx? (fun verdict => verdict = .disconnect) =
        exhausts? ((ledger.score peer).toInt - policy.disconnectThreshold.toInt)
          (adjustmentsOf peer later) ∧
      (policy.maxScore.toInt - policy.disconnectThreshold.toInt ≤
          total Adjustment.magnitude (adjustmentsOf peer later) →
        .disconnect ∈ ledger.verdictsOn peer later) := by
  intro ledger
  have distinct : ledger.Distinct :=
    Ledger.distinct_after (Ledger.distinct_fresh policy) earlier
  have samePolicy : ledger.policy = policy := Ledger.policy_after { policy := policy } earlier
  have inRange : policy.Admits (ledger.score peer) := admits_after acceptable earlier peer
  have place : (ledger.verdictsOn peer later).findIdx? (fun verdict => verdict = .disconnect) =
      exhausts? ((ledger.score peer).toInt - policy.disconnectThreshold.toInt)
        (adjustmentsOf peer later) := by
    have readings : ∀ reading ∈ later.flatMap Step.readings,
        (reading.after? ledger.policy.banPeriodSecs).isSome := by
      intro reading member
      rw [samePolicy, Option.isSome_iff_ne_none, Ne, Instant.after?_eq_none_iff]
      exact Nat.not_le.mpr (fits reading member)
    have capped : ledger.score peer ≤ ledger.policy.maxScore := by
      rw [samePolicy]
      exact inRange.2
    have known := Ledger.findIdx?_verdictsOn distinct capped later penalties readings
    rw [Ledger.reserve, samePolicy] at known
    exact known
  refine ⟨place, ?_⟩
  intro enough
  have exhausted : (exhausts? ((ledger.score peer).toInt - policy.disconnectThreshold.toInt)
      (adjustmentsOf peer later)).isSome := by
    have above := Int32.lt_iff_toInt_lt.mp inRange.1
    have capped := Int32.le_iff_toInt_le.mp inRange.2
    apply exhausts?_isSome
    · omega
    · omega
  rw [← place, List.findIdx?_isSome, List.any_eq_true] at exhausted
  obtain ⟨verdict, member, dropped⟩ := exhausted
  exact of_decide_eq_true dropped ▸ member

/-- Peer `a` is rewarded to a score of 13. -/
def rewarded : List Step :=
  [.adjust 0 0 ⟨"a", "/one"⟩ .largeReward, .adjust 0 0 ⟨"a", "/one"⟩ .smallReward]

/-- Two penalties bring peer `a` back to 0, so that the adjustment of peer `b` prunes it; it is back
with the next one. -/
def spent : List Step :=
  [.adjust 0 1 ⟨"a", "/one"⟩ .largePenalty, .adjust 1 1 ⟨"a", "/two"⟩ .smallPenalty,
    .adjust 1 2 ⟨"b", "/one"⟩ .smallReward, .adjust 2 2 ⟨"a", "/one"⟩ .largePenalty,
    .mayDial 3 ⟨"a", "/one"⟩, .adjust 3 3 ⟨"a", "/one"⟩ .largePenalty,
    .adjust 3 3 ⟨"b", "/one"⟩ .largePenalty, .adjust 4 4 ⟨"a", "/one"⟩ .largePenalty]

theorem dropped_when_exhausted_spent :
    crowded.Acceptable ∧
      (∀ adjustment ∈ adjustmentsOf "a" spent, adjustment.isPenalty = true) ∧
      (∀ reading ∈ spent.flatMap Step.readings,
        reading / nanosPerSecond + crowded.banPeriodSecs < clockRange) ∧
      (Ledger.after { policy := crowded } rewarded).score "a" = 13 ∧
      ((Ledger.after { policy := crowded } rewarded).verdictsOn "a" spent).findIdx?
        (fun verdict => verdict = .disconnect) = some 3 ∧
      .disconnect ∈ (Ledger.after { policy := crowded } rewarded).verdictsOn "a" spent := by
  have acceptable : crowded.Acceptable := ⟨by decide, by decide⟩
  have penalties : ∀ adjustment ∈ adjustmentsOf "a" spent, adjustment.isPenalty = true := by decide
  have fits : ∀ reading ∈ spent.flatMap Step.readings,
      reading / nanosPerSecond + crowded.banPeriodSecs < clockRange := by decide
  obtain ⟨place, enough⟩ :=
    dropped_when_exhausted crowded acceptable rewarded spent "a" penalties fits
  exact ⟨acceptable, penalties, fits, by decide +kernel, place.trans (by decide +kernel),
    enough (by decide)⟩

end PeerLink.Reputation
