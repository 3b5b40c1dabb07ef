import PeerLink.Proofs.Reputation.Scores

/-!
Contract: how far a ledger grows.

An adjustment that finds too many peers tracked drops all stale entries, and then adds one entry at
most. So either no more than one peer too many is tracked, or all entries but the one adjusted last say
something. What says something is never dropped.

Owns: the numbers of stale and informative entries, what an adjustment makes of them, and the entries
that it leaves.

Does not own: when a ban runs out.
-/

namespace PeerLink.Reputation

namespace Ledger

/-- How many entries say nothing at a reading of the clock. -/
def staleCount (ledger : Ledger) (now : Instant) : Nat :=
  ledger.entries.countP fun entry => entry.2.isStale now

/-- How many entries have a score other than 0 or a running ban. -/
def informativeCount (ledger : Ledger) (now : Instant) : Nat :=
  ledger.entries.countP fun entry => !entry.2.isStale now

variable {ledger : Ledger}

theorem trackedCount_eq (ledger : Ledger) (now : Instant) :
    ledger.trackedCount = ledger.staleCount now + ledger.informativeCount now := by
  have split := List.length_eq_countP_add_countP (fun entry : PeerId × Standing =>
    entry.2.isStale now) (l := ledger.entries)
  simpa [trackedCount, staleCount, informativeCount] using split

/-! ## One adjustment -/

section Store

variable (peer : PeerId) (standing : Standing) (entries : List (PeerId × Standing))

theorem length_store_le : (store peer standing entries).length ≤ entries.length + 1 := by
  induction entries with
  | nil => exact Nat.le_refl 1
  | cons entry rest inductionHypothesis =>
      unfold store
      split
      · exact Nat.le_succ _
      · exact Nat.succ_le_succ inductionHypothesis

/-- Storing brings in one entry of any kind at most. -/
theorem countP_store_le (kind : PeerId × Standing → Bool) :
    (store peer standing entries).countP kind ≤ entries.countP kind + 1 := by
  induction entries with
  | nil => exact List.countP_le_length
  | cons entry rest inductionHypothesis =>
      unfold store
      split
      · rw [List.countP_cons, List.countP_cons]
        split <;> omega
      · rw [List.countP_cons, List.countP_cons]
        omega

end Store

/-- After pruning there is room, or nothing stale is left. -/
theorem prune_cases (ledger : Ledger) (looked : Instant) :
    (ledger.prune looked).trackedCount ≤ ledger.policy.maxTrackedPeers ∨
      (ledger.prune looked).staleCount looked = 0 := by
  unfold prune
  split
  · refine .inr (List.countP_eq_zero.mpr fun entry member => ?_)
    simpa using (List.mem_filter.mp member).2
  · rename_i room
    exact .inl (Nat.not_lt.mp room)

/-- At most one peer more than allowed is tracked, or at most one entry says nothing. -/
def Roomy (ledger : Ledger) (now : Instant) : Prop :=
  ledger.trackedCount ≤ ledger.policy.maxTrackedPeers + 1 ∨ ledger.staleCount now ≤ 1

/-- An adjustment leaves room or nothing stale but the entry adjusted, whatever it found. -/
theorem roomy_adjust (ledger : Ledger) (looked now : Instant) (address : PeerAddress)
    (adjustment : Adjustment) :
    (ledger.adjust looked now address adjustment).ledger.Roomy looked := by
  have samePolicy : (ledger.prune looked).policy = ledger.policy := policy_prune looked
  obtain room | informative := ledger.prune_cases looked
  · left
    refine Nat.le_trans (length_store_le address.peerId _ _) ?_
    show (ledger.prune looked).trackedCount + 1 ≤ (ledger.prune looked).policy.maxTrackedPeers + 1
    rw [samePolicy]
    exact Nat.succ_le_succ room
  · right
    refine Nat.le_trans (countP_store_le address.peerId _ _ _) ?_
    show (ledger.prune looked).staleCount looked + 1 ≤ 1
    exact Nat.succ_le_succ (Nat.le_of_eq informative)

/-- An adjustment leaves every entry that says something; that of another peer it leaves as it is. -/
theorem exists_find?_adjust (distinct : ledger.Distinct) {looked : Instant} {peer : PeerId}
    {standing : Standing} (found : ledger.find? peer = some standing)
    (informative : standing.isStale looked = false) (now : Instant) (address : PeerAddress)
    (adjustment : Adjustment) :
    ∃ later, (ledger.adjust looked now address adjustment).ledger.find? peer = some later ∧
      (peer ≠ address.peerId → later = standing) := by
  rw [find?_adjust]
  split
  · rename_i same
    exact ⟨_, rfl, fun other => absurd same other⟩
  · have kept : (ledger.prune looked).find? peer = some standing := by
      obtain same | filtered := find?_prune distinct looked peer
      · rw [same, found]
      · rw [filtered, found, Option.filter_some, informative]
        rfl
    exact ⟨standing, kept, fun _ => rfl⟩

/-! ## A run while the clock stands still -/

theorem roomy_fresh (policy : Policy) (now : Instant) : Roomy { policy := policy } now :=
  .inl (Nat.zero_le _)

theorem roomy_after {clock : Instant} (roomy : ledger.Roomy clock) (steps : List Step)
    (still : ∀ reading ∈ steps.flatMap Step.readings, reading = clock) :
    (ledger.after steps).Roomy clock := by
  induction steps generalizing ledger with
  | nil => exact roomy
  | cons step rest inductionHypothesis =>
      rw [List.flatMap_cons] at still
      refine inductionHypothesis ?_ fun reading member => still reading (List.mem_append_right _ member)
      cases step with
      | adjust looked now address adjustment =>
          have current : looked = clock :=
            still looked (List.mem_append_left _ (by simp [Step.readings]))
          rw [← current]
          exact roomy_adjust ledger looked now address adjustment
      | score target => exact roomy
      | mayDial now address => exact roomy

end Ledger

/-- While the clock stands still, a ledger tracks at most one peer more than allowed or has at most one
entry that says nothing, and no adjustment takes away an entry with a score other than 0 or a running
ban. So beyond the limit it grows with the number of informative entries alone. -/
theorem grows_with_informative (policy : Policy) (clock : Instant) (steps : List Step)
    (still : ∀ reading ∈ steps.flatMap Step.readings, reading = clock) :
    let ledger := Ledger.after { policy := policy } steps
    (ledger.trackedCount ≤ policy.maxTrackedPeers + 1 ∨ ledger.staleCount clock ≤ 1) ∧
      (∀ (peer : PeerId) (standing : Standing), ledger.find? peer = some standing →
        ∀ (looked now : Instant) (address : PeerAddress) (adjustment : Adjustment),
          standing.score ≠ 0 ∨ standing.isBanned looked = true →
            ∃ later, (ledger.adjust looked now address adjustment).ledger.find? peer = some later ∧
              (peer ≠ address.peerId → later = standing)) ∧
      ledger.trackedCount ≤ max policy.maxTrackedPeers (ledger.informativeCount clock) + 1 := by
  intro ledger
  have distinct : ledger.Distinct := Ledger.distinct_after (Ledger.distinct_fresh policy) steps
  have roomy : ledger.trackedCount ≤ policy.maxTrackedPeers + 1 ∨ ledger.staleCount clock ≤ 1 := by
    have known := Ledger.roomy_after (Ledger.roomy_fresh policy clock) steps still
    rw [Ledger.Roomy, Ledger.policy_after] at known
    exact known
  refine ⟨roomy, ?_, ?_⟩
  · intro peer standing found looked now address adjustment informative
    refine Ledger.exists_find?_adjust distinct found ?_ now address adjustment
    obtain scored | banned := informative
    · simp [Standing.isStale, scored]
    · simp [Standing.isStale, banned]
  · have all := ledger.trackedCount_eq clock
    omega

/-- A policy that allows for no peers and bans for no time. -/
def tightest : Policy := { banPeriodSecs := 0, maxTrackedPeers := 0 }

/-- Peers `a` and `b` get scores; peer `c` comes in and is dropped, so that its entry is stale. -/
def lastOneStale : List Step :=
  [.adjust 7 7 ⟨"a", "/one"⟩ .largeReward, .adjust 7 7 ⟨"b", "/one"⟩ .smallPenalty,
    .adjust 7 7 ⟨"c", "/one"⟩ .largePenalty, .adjust 7 7 ⟨"c", "/two"⟩ .largePenalty]

theorem grows_with_informative_lastOneStale :
    (∀ reading ∈ lastOneStale.flatMap Step.readings, reading = 7) ∧
      (Ledger.after { policy := tightest } lastOneStale).trackedCount = 3 ∧
      (Ledger.after { policy := tightest } lastOneStale).staleCount 7 = 1 ∧
      ((Ledger.after { policy := tightest } lastOneStale).trackedCount ≤ 0 + 1 ∨
        (Ledger.after { policy := tightest } lastOneStale).staleCount 7 ≤ 1) ∧
      ∃ later, ((Ledger.after { policy := tightest } lastOneStale).adjust 7 7 ⟨"a", "/two"⟩
        .smallReward).ledger.find? "b" = some later := by
  have still : ∀ reading ∈ lastOneStale.flatMap Step.readings, reading = 7 := by decide
  obtain ⟨roomy, lasting, -⟩ := grows_with_informative tightest 7 lastOneStale still
  have found : (Ledger.after { policy := tightest } lastOneStale).find? "b" =
      some { score := -3 } := by decide +kernel
  obtain ⟨later, kept, -⟩ := lasting "b" { score := -3 } found 7 7 ⟨"a", "/two"⟩ .smallReward
    (.inl (by decide))
  exact ⟨still, by decide +kernel, by decide +kernel, roomy, later, kept⟩

end PeerLink.Reputation
