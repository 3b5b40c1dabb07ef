import PeerLink.Proofs.Reputation.Ledger

/-!
Contract: every peer is judged as if it were the only one.

`Solo` is a single peer that is judged on its own and never forgotten. A ledger keeps all peers
together and drops entries when there are too many, but what it answers about a peer is what that
peer's own `Solo` answers: an entry is dropped only when it cannot be told from a fresh one, now or at
any later reading of the clock.

Owns: `Solo`, questions and steps, and the theorem that the two answer alike.

Does not own: what an entry says after storing and pruning.
-/

namespace PeerLink.Reputation

/-! ## A peer judged on its own -/

/-- The rules that a single peer is judged by. -/
structure Rules where
  threshold : Int
  maxScore : Int
  banSeconds : Nat

def Policy.rules (policy : Policy) : Rules where
  threshold := policy.disconnectThreshold.toInt
  maxScore := policy.maxScore.toInt
  banSeconds := policy.banPeriodSecs

/-- What is done or asked concerning one peer. -/
inductive Question where
  | adjust (now : Instant) (adjustment : Adjustment)
  | score
  | mayDial (now : Instant)
deriving DecidableEq, Repr

inductive Answer where
  | verdict (verdict : Verdict)
  | score (score : Int)
  | mayDial (allowed : Bool)
deriving DecidableEq, Repr

structure Solo where
  score : Int := 0
  bannedUntil : Option Instant := none

namespace Solo

/-- The number nearest to a sum that a signed word of 32 bits can hold. -/
def clamp (sum : Int) : Int := max (-2147483648) (min 2147483647 sum)

def isBanned (solo : Solo) (now : Instant) : Bool := solo.bannedUntil.any (now < ·)

/-- The new score is the clamped sum, capped. At the threshold or below it the peer is dropped: its
score starts again and its ban begins, unless the ban's end is beyond the clock's range. -/
def adjust (rules : Rules) (now : Instant) (change : Int) (solo : Solo) : Verdict × Solo :=
  let score := min (clamp (solo.score + change)) rules.maxScore
  if score ≤ rules.threshold then
    match Instant.after? now rules.banSeconds with
    | some deadline => (.disconnect, { score := 0, bannedUntil := some deadline })
    | none => (.clockOverflow, { solo with score := 0 })
  else (.keep, { solo with score := score })

def answer (rules : Rules) (solo : Solo) : Question → Answer × Solo
  | .adjust now adjustment =>
      let (verdict, later) := solo.adjust rules now adjustment.change
      (.verdict verdict, later)
  | .score => (.score solo.score, solo)
  | .mayDial now => (.mayDial !(solo.isBanned now), solo)

def answers (rules : Rules) (solo : Solo) : List Question → List Answer
  | [] => []
  | question :: rest =>
      let (answer, later) := solo.answer rules question
      answer :: later.answers rules rest

end Solo

/-! ## Steps of a ledger -/

inductive Step where
  | adjust (looked now : Instant) (peer : PeerAddress) (adjustment : Adjustment)
  | score (peer : PeerId)
  | mayDial (now : Instant) (peer : PeerAddress)
deriving DecidableEq, Repr

namespace Step

/-- The peer that a step concerns. -/
def peer : Step → PeerId
  | adjust _ _ peer _ | mayDial _ peer => peer.peerId
  | score peer => peer

/-- What a step is to the peer that it concerns. The address and the reading that pruning goes by
are no part of it. -/
def question : Step → Question
  | adjust _ now _ adjustment => .adjust now adjustment
  | score _ => .score
  | mayDial now _ => .mayDial now

/-- The readings of the clock, in the order in which they are taken. -/
def readings : Step → List Instant
  | adjust looked now _ _ => [looked, now]
  | score _ => []
  | mayDial now _ => [now]

end Step

/-- The clock never goes back. -/
def Forward (steps : List Step) : Prop := (steps.flatMap Step.readings).Pairwise (· ≤ ·)

/-- The questions concerning one peer, in order. -/
def questionsOf (peer : PeerId) (steps : List Step) : List Question :=
  (steps.filter fun step => step.peer = peer).map Step.question

namespace Ledger

def answer (ledger : Ledger) : Step → Answer × Ledger
  | .adjust looked now peer adjustment =>
      let adjusted := ledger.adjust looked now peer adjustment
      (.verdict adjusted.verdict, adjusted.ledger)
  | .score peer => (.score (ledger.score peer).toInt, ledger)
  | .mayDial now peer => (.mayDial (ledger.allowsDialling now peer), ledger)

/-- The answers to all steps, each under the peer that it concerns. -/
def answers (ledger : Ledger) : List Step → List (PeerId × Answer)
  | [] => []
  | step :: rest =>
      let (answer, later) := ledger.answer step
      (step.peer, answer) :: later.answers rest

/-- The answers concerning one peer, in order. -/
def answersTo (ledger : Ledger) (peer : PeerId) (steps : List Step) : List Answer :=
  ((ledger.answers steps).filter fun entry => entry.1 = peer).map Prod.snd

end Ledger

/-! ## A standing and a `Solo` that cannot be told apart -/

theorem clamp_eq_saturate (sum : Int) : Solo.clamp sum = (saturate sum).toInt := by
  rw [toInt_saturate, Int32.toInt_minValue, Int32.toInt_maxValue]
  rfl

theorem Standing.isBanned_mono {standing : Standing} {now later : Instant} (passes : now ≤ later)
    (ended : standing.isBanned now = false) : standing.isBanned later = false := by
  unfold isBanned at ended ⊢
  split
  · rename_i deadline banned
    rw [banned] at ended
    exact decide_eq_false (Nat.not_lt.mpr (Nat.le_trans (Nat.not_lt.mp (of_decide_eq_false ended))
      passes))
  · rfl

/-- From this reading of the clock on, the two answer alike. -/
structure Matches (now : Instant) (standing : Standing) (solo : Solo) : Prop where
  score : standing.score.toInt = solo.score
  banned : ∀ later, now ≤ later → standing.isBanned later = solo.isBanned later

namespace Matches

variable {now later : Instant} {standing : Standing} {solo : Solo}

theorem fresh (now : Instant) : Matches now {} {} := ⟨rfl, fun _ _ => rfl⟩

theorem mono (alike : Matches now standing solo) (passes : now ≤ later) :
    Matches later standing solo :=
  ⟨alike.score, fun moment after => alike.banned moment (Nat.le_trans passes after)⟩

/-- A stale standing may be forgotten. -/
theorem forget (alike : Matches now standing solo) (stale : standing.isStale now = true) :
    Matches now {} solo := by
  unfold Standing.isStale at stale
  rw [Bool.and_eq_true, beq_iff_eq, Bool.not_eq_true'] at stale
  obtain ⟨neutral, ended⟩ := stale
  constructor
  · rw [← alike.score, neutral]
  · intro later after
    rw [← alike.banned later after, Standing.isBanned_mono after ended]
    rfl

/-- An adjustment meets the same verdict, and leaves the two alike. -/
theorem adjust (alike : Matches now standing solo) (policy : Policy) (change : Int) :
    (standing.adjust policy now change).1 = (solo.adjust policy.rules now change).1 ∧
      Matches now (standing.adjust policy now change).2 (solo.adjust policy.rules now change).2 := by
  have raised : (standing.raised policy change).toInt =
      min (Solo.clamp (solo.score + change)) policy.rules.maxScore := by
    rw [toInt_raised, clamp_eq_saturate, alike.score]
    rfl
  have crosses : standing.raised policy change ≤ policy.disconnectThreshold ↔
      min (Solo.clamp (solo.score + change)) policy.rules.maxScore ≤ policy.rules.threshold := by
    rw [Int32.le_iff_toInt_le, raised]
    rfl
  unfold Standing.adjust Solo.adjust
  dsimp only
  by_cases drops : standing.raised policy change ≤ policy.disconnectThreshold
  · rw [if_pos drops, if_pos (crosses.mp drops)]
    cases ends : Instant.after? now policy.banPeriodSecs with
    | some deadline =>
        simp only [show Instant.after? now policy.rules.banSeconds = some deadline from ends]
        exact ⟨trivial, rfl, fun _ _ => rfl⟩
    | none =>
        simp only [show Instant.after? now policy.rules.banSeconds = none from ends]
        exact ⟨trivial, rfl, alike.banned⟩
  · rw [if_neg drops, if_neg (mt crosses.mpr drops)]
    exact ⟨rfl, raised, alike.banned⟩

end Matches

/-! ## A ledger mirrors each of its peers -/

/-- What a ledger says of a peer matches the peer's own `Solo`. -/
def Mirrors (now : Instant) (ledger : Ledger) (peer : PeerId) (solo : Solo) : Prop :=
  Matches now ((ledger.find? peer).getD {}) solo

section Mirrors

variable {now : Instant} {ledger : Ledger} {peer : PeerId} {solo : Solo}

theorem Mirrors.prune (mirrors : Mirrors now ledger peer solo) (distinct : ledger.Distinct) :
    Mirrors now (ledger.prune now) peer solo := by
  unfold Mirrors at mirrors ⊢
  rcases Ledger.find?_prune distinct now peer with same | filtered
  · rw [same]
    exact mirrors
  · rw [filtered]
    cases found : ledger.find? peer with
    | none =>
        rw [found] at mirrors
        exact mirrors
    | some standing =>
        rw [found] at mirrors
        rw [Option.filter_some]
        split
        · exact mirrors
        · rename_i dropped
          exact mirrors.forget (by simpa using dropped)

theorem score_eq (mirrors : Mirrors now ledger peer solo) :
    (ledger.score peer).toInt = solo.score := by
  rw [← mirrors.score]
  unfold Ledger.score
  cases ledger.find? peer <;> rfl

theorem allowsDialling_eq (mirrors : Mirrors now ledger peer solo) {address : PeerAddress}
    (same : address.peerId = peer) :
    ledger.allowsDialling now address = !(solo.isBanned now) := by
  rw [← mirrors.banned now (Nat.le_refl _)]
  unfold Ledger.allowsDialling
  rw [same]
  cases ledger.find? peer <;> rfl

theorem distinct_answer (distinct : ledger.Distinct) (step : Step) :
    (ledger.answer step).2.Distinct := by
  cases step with
  | adjust looked now address adjustment =>
      exact Ledger.distinct_store (Ledger.distinct_prune distinct looked) address.peerId _
  | score | mayDial => exact distinct

theorem policy_answer (ledger : Ledger) (step : Step) :
    (ledger.answer step).2.policy = ledger.policy := by
  cases step with
  | adjust looked now address adjustment => exact Ledger.policy_prune looked
  | score | mayDial => rfl

/-- The reading of the clock after a step. -/
def Step.clockAfter (clock : Instant) (step : Step) : Instant := step.readings.getLast?.getD clock

/-- A step that concerns another peer goes unnoticed. -/
theorem mirrors_of_other (mirrors : Mirrors now ledger peer solo) (distinct : ledger.Distinct)
    {step : Step} (forward : (now :: step.readings).Pairwise (· ≤ ·)) (other : step.peer ≠ peer) :
    Mirrors (step.clockAfter now) (ledger.answer step).2 peer solo := by
  cases step with
  | adjust looked later address adjustment =>
      have passes : now ≤ looked ∧ looked ≤ later := by
        simp only [Step.readings, List.pairwise_cons] at forward
        exact ⟨forward.1 looked (by simp), forward.2.1 later (by simp)⟩
      have pruned := Mirrors.prune (mirrors.mono passes.1) distinct
      have elsewhere := Ledger.find?_adjust ledger looked later address adjustment peer
      rw [if_neg fun same => other same.symm] at elsewhere
      have stored : Mirrors looked (ledger.adjust looked later address adjustment).ledger peer
          solo := by
        unfold Mirrors
        rw [elsewhere]
        exact pruned
      exact stored.mono passes.2
  | score target => exact mirrors
  | mayDial later address =>
      refine mirrors.mono ?_
      simp only [Step.readings, List.pairwise_cons] at forward
      exact forward.1 later (by simp)

/-- A step that concerns the peer is answered as the peer's own `Solo` answers it. -/
theorem answer_mirrored (mirrors : Mirrors now ledger peer solo) (distinct : ledger.Distinct)
    {step : Step} (forward : (now :: step.readings).Pairwise (· ≤ ·)) (same : step.peer = peer) :
    (ledger.answer step).1 = (solo.answer ledger.policy.rules step.question).1 ∧
      Mirrors (step.clockAfter now) (ledger.answer step).2 peer
        (solo.answer ledger.policy.rules step.question).2 := by
  cases step with
  | adjust looked later address adjustment =>
      subst same
      have passes : now ≤ looked ∧ looked ≤ later := by
        simp only [Step.readings, List.pairwise_cons] at forward
        exact ⟨forward.1 looked (by simp), forward.2.1 later (by simp)⟩
      have pruned := Mirrors.prune (mirrors.mono passes.1) distinct
      obtain ⟨verdict, adjusted⟩ := (pruned.mono passes.2).adjust ledger.policy adjustment.change
      refine ⟨congrArg Answer.verdict verdict, ?_⟩
      have here := Ledger.find?_adjust ledger looked later address adjustment address.peerId
      rw [if_pos rfl] at here
      show Matches later (((ledger.adjust looked later address adjustment).ledger.find?
        address.peerId).getD {}) _
      rw [here]
      exact adjusted
  | score target =>
      subst same
      exact ⟨congrArg Answer.score (score_eq mirrors), mirrors⟩
  | mayDial later address =>
      have passes : now ≤ later := by
        simp only [Step.readings, List.pairwise_cons] at forward
        exact forward.1 later (by simp)
      have current : Mirrors later ledger peer solo := mirrors.mono passes
      exact ⟨congrArg Answer.mayDial (allowsDialling_eq current same), current⟩

end Mirrors

/-! ## A whole run -/

theorem answersTo_eq_of_mirrors {ledger : Ledger} {peer : PeerId} {solo : Solo} {clock : Instant}
    (mirrors : Mirrors clock ledger peer solo) (distinct : ledger.Distinct) (steps : List Step)
    (forward : (clock :: steps.flatMap Step.readings).Pairwise (· ≤ ·)) :
    ledger.answersTo peer steps = solo.answers ledger.policy.rules (questionsOf peer steps) := by
  induction steps generalizing ledger solo clock with
  | nil => rfl
  | cons step rest inductionHypothesis =>
      have here : (clock :: step.readings).Pairwise (· ≤ ·) := by
        rw [List.flatMap_cons, ← List.cons_append] at forward
        exact (List.pairwise_append.mp forward).1
      -- What follows is read no earlier than the last reading of this step.
      have onward : (step.clockAfter clock :: rest.flatMap Step.readings).Pairwise (· ≤ ·) := by
        rw [List.flatMap_cons] at forward
        refine forward.sublist ?_
        cases step with
        | adjust looked now address adjustment =>
            exact ((List.Sublist.refl _).cons _).cons _
        | score target => exact List.Sublist.refl _
        | mayDial now address => exact (List.Sublist.refl _).cons _
      have laterDistinct := distinct_answer distinct step
      unfold Ledger.answersTo questionsOf Ledger.answers
      dsimp only
      rw [List.filter_cons, List.filter_cons]
      by_cases same : step.peer = peer
      · obtain ⟨answered, laterMirrors⟩ := answer_mirrored mirrors distinct here same
        have later := inductionHypothesis laterMirrors laterDistinct onward
        rw [policy_answer] at later
        rw [if_pos (decide_eq_true same), if_pos (decide_eq_true same), List.map_cons, List.map_cons]
        exact List.cons_eq_cons.mpr ⟨answered, later⟩
      · have laterMirrors := mirrors_of_other mirrors distinct here same
        have later := inductionHypothesis laterMirrors laterDistinct onward
        rw [policy_answer] at later
        rw [if_neg (by simpa using same), if_neg (by simpa using same)]
        exact later

theorem forward_from_zero {steps : List Step} (forward : Forward steps) :
    (0 :: steps.flatMap Step.readings).Pairwise (· ≤ ·) :=
  List.pairwise_cons.mpr ⟨fun reading _ => Nat.zero_le reading, forward⟩

/-- As long as the clock never goes back, a shared ledger answers every question about a peer as that
peer's own machine does. So two ledgers under the same rules answer alike about a peer if the same is
asked about it, whatever they track, whoever else they judge and whatever the addresses are. -/
theorem judged_alone (policy : Policy) (steps : List Step) (forward : Forward steps)
    (peer : PeerId) :
    Ledger.answersTo { policy := policy } peer steps =
        ({} : Solo).answers policy.rules (questionsOf peer steps) ∧
      ∀ (other : Policy) (others : List Step), Forward others → other.rules = policy.rules →
        questionsOf peer others = questionsOf peer steps →
        Ledger.answersTo { policy := other } peer others =
          Ledger.answersTo { policy := policy } peer steps := by
  have alone (policy : Policy) (steps : List Step) (forward : Forward steps) :
      Ledger.answersTo { policy := policy } peer steps =
        ({} : Solo).answers policy.rules (questionsOf peer steps) := by
    refine answersTo_eq_of_mirrors ?_ ?_ steps (forward_from_zero forward)
    · exact Matches.fresh 0
    · exact List.nodup_nil
  refine ⟨alone policy steps forward, fun other others otherForward rules asked => ?_⟩
  rw [alone other others otherForward, alone policy steps forward, rules, asked]

/-- A policy under which every adjustment that finds a tracked peer prunes. -/
def crowded : Policy := { banPeriodSecs := 1, maxTrackedPeers := 0 }

/-- Peer `a` is banned for a second under two addresses; when the ban is over its entry is pruned by
an adjustment of peer `b`. -/
def prunedAfterBan : List Step :=
  [.adjust 0 0 ⟨"a", "/one"⟩ .largePenalty, .adjust 0 5 ⟨"b", "/one"⟩ .smallReward,
    .adjust 5 6 ⟨"a", "/two"⟩ .largePenalty, .mayDial 7 ⟨"a", "/one"⟩,
    .adjust 2000000000 2000000000 ⟨"b", "/one"⟩ .smallReward, .mayDial 2000000001 ⟨"a", "/two"⟩,
    .score "a"]

/-- The same without peer `b`. -/
def unprunedAfterBan : List Step :=
  [.adjust 0 0 ⟨"a", "/three"⟩ .largePenalty, .adjust 6 6 ⟨"a", "/three"⟩ .largePenalty,
    .mayDial 7 ⟨"a", "/three"⟩, .mayDial 2000000001 ⟨"a", "/three"⟩, .score "a"]

theorem judged_alone_prunedAfterBan :
    Forward prunedAfterBan ∧ Forward unprunedAfterBan ∧
      Ledger.answersTo { policy := crowded } "a" prunedAfterBan =
        [.verdict .keep, .verdict .disconnect, .mayDial false, .mayDial true, .score 0] ∧
      Ledger.answersTo { policy := crowded } "a" prunedAfterBan =
        ({} : Solo).answers crowded.rules (questionsOf "a" prunedAfterBan) ∧
      Ledger.answersTo { policy := { crowded with maxTrackedPeers := 9 } } "a" unprunedAfterBan =
        Ledger.answersTo { policy := crowded } "a" prunedAfterBan := by
  have forward : Forward prunedAfterBan := by
    unfold Forward
    decide
  have otherForward : Forward unprunedAfterBan := by
    unfold Forward
    decide
  obtain ⟨alone, unseen⟩ := judged_alone crowded prunedAfterBan forward "a"
  exact ⟨forward, otherForward, by decide, alone,
    unseen { crowded with maxTrackedPeers := 9 } unprunedAfterBan otherForward rfl (by decide)⟩

end PeerLink.Reputation
