import PeerLink.Proofs.Reputation.Bans
import PeerLink.Settings.Reader

/-!
Contract: when the end of a ban is out of range.

A score never leaves its range, but the end of a ban is the present time plus a period that the
settings leave unbounded. That sum is made only for a peer that falls to the threshold, and enough
penalties bring any peer there. So whether some run meets an end of a ban that is out of range depends
on the period and on how late the clock is read, and on nothing else.

Owns: the runs that meet such an end, and acceptable settings under which there are some.

Does not own: what acceptable settings are.
-/

namespace PeerLink.Reputation

theorem Instant.after?_eq_none_iff {now : Instant} {seconds : Nat} :
    now.after? seconds = none ↔ clockRange ≤ now / nanosPerSecond + seconds := by
  unfold after?
  split
  · rename_i inRange
    simp only [reduceCtorEq, false_iff]
    exact Nat.not_le.mpr inRange
  · rename_i outOfRange
    simpa using outOfRange

/-! ## Only a ban whose end is out of range overflows -/

theorem Standing.after?_of_overflow {standing : Standing} {policy : Policy} {now : Instant}
    {change : Int} (overflows : (standing.adjust policy now change).1 = .clockOverflow) :
    Instant.after? now policy.banPeriodSecs = none := by
  unfold adjust at overflows
  dsimp only at overflows
  split at overflows
  · cases ends : Instant.after? now policy.banPeriodSecs with
    | none => rfl
    | some deadline =>
        rw [ends] at overflows
        cases overflows
  · cases overflows

namespace Ledger

/-- Where the clock overflows it was read so late that a ban does not fit in its range. -/
theorem reading_of_overflow {ledger : Ledger} {peer : PeerId} (steps : List Step)
    (overflows : (peer, .verdict .clockOverflow) ∈ ledger.answers steps) :
    ∃ reading ∈ steps.flatMap Step.readings,
      Instant.after? reading ledger.policy.banPeriodSecs = none := by
  induction steps generalizing ledger with
  | nil => cases overflows
  | cons step rest inductionHypothesis =>
      have cases : (peer, Answer.verdict .clockOverflow) ∈
          (step.peer, (ledger.answer step).1) :: (ledger.answer step).2.answers rest := overflows
      rw [List.flatMap_cons]
      rcases List.mem_cons.mp cases with here | later
      · cases step with
        | adjust looked now address adjustment =>
            have verdict := Answer.verdict.inj (Prod.mk.inj here).2
            refine ⟨now, List.mem_append_left _ (by simp [Step.readings]), ?_⟩
            exact Standing.after?_of_overflow verdict.symm
        | score target => cases (Prod.mk.inj here).2
        | mayDial now address => cases (Prod.mk.inj here).2
      · obtain ⟨reading, member, outOfRange⟩ := inductionHypothesis later
        rw [policy_answer] at outOfRange
        exact ⟨reading, List.mem_append_right _ member, outOfRange⟩

end Ledger

/-! ## Enough penalties overflow -/

/-- Penalties bring a peer to the threshold from any score, as no threshold is below the lowest score
that there is. -/
theorem Solo.overflows_of_penalties {rules : Rules} (isScore : -2147483648 ≤ rules.threshold)
    {now : Instant} (outOfRange : now.after? rules.banSeconds = none) (distance : Nat) (solo : Solo)
    (near : solo.score ≤ rules.threshold + distance) :
    ∃ times, .verdict .clockOverflow ∈
      solo.answers rules (List.replicate times (.adjust now .largePenalty)) := by
  induction distance generalizing solo with
  | zero =>
      have falls : min (clamp (solo.score + Adjustment.largePenalty.change)) rules.maxScore ≤
          rules.threshold := by
        simp only [clamp, Adjustment.change]
        omega
      exact ⟨1, by simp [answers, answer, adjust, falls, outOfRange]⟩
  | succ distance inductionHypothesis =>
      by_cases falls : min (clamp (solo.score + Adjustment.largePenalty.change)) rules.maxScore ≤
          rules.threshold
      · exact ⟨1, by simp [answers, answer, adjust, falls, outOfRange]⟩
      · -- The score is above the threshold still, but ten points closer to it.
        have nearer : (solo.adjust rules now Adjustment.largePenalty.change).2.score ≤
            rules.threshold + distance := by
          simp only [adjust, falls, ↓reduceIte]
          simp only [clamp, Adjustment.change] at falls ⊢
          omega
        obtain ⟨times, overflows⟩ := inductionHypothesis _ nearer
        refine ⟨times + 1, ?_⟩
        rw [List.replicate_succ]
        exact List.mem_cons_of_mem _ overflows

/-- Penalties for one peer, at one reading of the clock. -/
def penalties (times : Nat) (now : Instant) (address : PeerAddress) : List Step :=
  List.replicate times (.adjust now now address .largePenalty)

theorem readings_penalties {times : Nat} {now : Instant} {address : PeerAddress} {reading : Instant}
    (member : reading ∈ (penalties times now address).flatMap Step.readings) : reading = now := by
  obtain ⟨step, isPenalty, isReading⟩ := List.mem_flatMap.mp member
  rw [List.eq_of_mem_replicate isPenalty] at isReading
  simpa [Step.readings] using isReading

theorem forward_penalties (times : Nat) (now : Instant) (address : PeerAddress) :
    Forward (penalties times now address) := by
  unfold Forward
  refine List.Pairwise.imp_of_mem (R := fun _ _ => True) ?_ (List.pairwise_of_forall fun _ _ => trivial)
  intro earlier later isReading isLater _
  exact Nat.le_of_eq ((readings_penalties isReading).trans (readings_penalties isLater).symm)

theorem questionsOf_penalties (times : Nat) (now : Instant) (address : PeerAddress) :
    questionsOf address.peerId (penalties times now address) =
      List.replicate times (.adjust now .largePenalty) := by
  simp [questionsOf, penalties, Step.peer, Step.question]

/-- A run in which the clock overflows, for some peer. -/
def Overflows (policy : Policy) (steps : List Step) : Prop :=
  ∃ peer, (peer, .verdict .clockOverflow) ∈ Ledger.answers { policy := policy } steps

theorem overflows_of_outOfRange {policy : Policy} {now : Instant}
    (outOfRange : now.after? policy.banPeriodSecs = none) (address : PeerAddress) :
    ∃ times, Overflows policy (penalties times now address) := by
  have isScore : -2147483648 ≤ policy.rules.threshold :=
    Int32.toInt_minValue ▸ policy.disconnectThreshold.minValue_le_toInt
  obtain ⟨times, overflows⟩ := Solo.overflows_of_penalties isScore outOfRange
    (0 - policy.rules.threshold).toNat {} (by simp only; omega)
  refine ⟨times, address.peerId, ?_⟩
  have mirrors : Mirrors 0 { policy := policy } address.peerId {} := Matches.fresh 0
  have alone := answersTo_eq_of_mirrors mirrors (Ledger.distinct_fresh policy)
    (penalties times now address) (forward_from_zero (forward_penalties times now address))
  rw [questionsOf_penalties] at alone
  rw [← alone] at overflows
  obtain ⟨entry, member, isVerdict⟩ := List.mem_map.mp overflows
  obtain ⟨isAnswer, isPeer⟩ := List.mem_filter.mp member
  rw [← of_decide_eq_true isPeer, ← isVerdict]
  exact isAnswer

/-- Up to some reading of the clock no run overflows, whoever is adjusted and however often, exactly
if a ban that begins at that reading ends within the clock's range. -/
theorem never_overflows_iff (policy : Policy) (horizon : Instant) :
    (∀ steps, Forward steps → (∀ reading ∈ steps.flatMap Step.readings, reading ≤ horizon) →
        ¬ Overflows policy steps) ↔
      horizon / nanosPerSecond + policy.banPeriodSecs < clockRange := by
  constructor
  · intro never
    apply Nat.lt_of_not_le
    intro outOfRange
    let address : PeerAddress := ⟨"", ""⟩
    obtain ⟨times, overflows⟩ :=
      overflows_of_outOfRange (Instant.after?_eq_none_iff.mpr outOfRange) address
    refine never _ (forward_penalties times horizon address) ?_ overflows
    intro reading member
    exact Nat.le_of_eq (readings_penalties member)
  · rintro inRange steps - early ⟨peer, overflows⟩
    obtain ⟨reading, member, none⟩ := Ledger.reading_of_overflow steps overflows
    have late := Instant.after?_eq_none_iff.mp none
    have passed : reading / nanosPerSecond ≤ horizon / nanosPerSecond :=
      Nat.div_le_div_right (early reading member)
    exact absurd late (Nat.not_le.mpr (Nat.lt_of_le_of_lt (Nat.add_le_add_right passed _) inRange))

/-- A document that sets nothing but the longest ban that can be written. -/
def endlessBan : String := "[reputation]\nban_period_secs = 9223372036854775807"

/-- Its settings are accepted, and under them the second penalty overflows as soon as the clock has
counted a second. -/
theorem overflows_of_endlessBan :
    ∃ settings, (Settings.read endlessBan).toOption = some settings ∧ settings.violation? = none ∧
      Forward (penalties 2 nanosPerSecond ⟨"a", "/one"⟩) ∧
      Overflows settings.reputation (penalties 2 nanosPerSecond ⟨"a", "/one"⟩) := by
  refine ⟨{ reputation := { banPeriodSecs := 9223372036854775807 } }, by decide +kernel, by decide,
    forward_penalties 2 nanosPerSecond ⟨"a", "/one"⟩, "a", by decide +kernel⟩

end PeerLink.Reputation
