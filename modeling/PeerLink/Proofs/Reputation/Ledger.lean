import PeerLink.Reputation.Ledger

/-!
Contract: scores as integers, and what a ledger says of one peer after storing and pruning.

No peer id has two entries. So storing under one peer id is seen by that peer alone, and pruning takes
an entry away from a peer only if that entry said nothing.

Owns: the range of saturated sums, look-ups after storing and after pruning, and that ids stay distinct.

Does not own: the verdicts.
-/

namespace PeerLink.Reputation

/-! ## Scores as integers -/

theorem toInt_saturate (sum : Int) :
    (saturate sum).toInt = max Int32.minValue.toInt (min Int32.maxValue.toInt sum) := by
  unfold saturate
  have lowest := Int32.toInt_minValue
  have highest := Int32.toInt_maxValue
  split
  · omega
  · split
    · omega
    · rw [Int32.toInt_ofInt_of_le] <;> omega

theorem toInt_raised (standing : Standing) (policy : Policy) (change : Int) :
    (standing.raised policy change).toInt =
      min (saturate (standing.score.toInt + change)).toInt policy.maxScore.toInt := by
  unfold Standing.raised
  dsimp only
  split
  · rename_i capped
    have above := Int32.lt_iff_toInt_lt.mp capped
    omega
  · rename_i free
    have below := mt Int32.lt_iff_toInt_lt.mpr free
    omega

/-! ## Entries -/

namespace Ledger

/-- No peer id has two entries. -/
def Distinct (ledger : Ledger) : Prop := (ledger.entries.map Prod.fst).Nodup

section Entries

variable {entries : List (PeerId × Standing)} {peer : PeerId}

theorem map_fst_store (standing : Standing) (entries : List (PeerId × Standing)) :
    (store peer standing entries).map Prod.fst =
      if peer ∈ entries.map Prod.fst then entries.map Prod.fst else entries.map Prod.fst ++ [peer] := by
  induction entries with
  | nil => rfl
  | cons entry rest inductionHypothesis =>
      unfold store
      by_cases same : entry.1 = peer
      · simp [same]
      · rw [if_neg same, List.map_cons, List.map_cons, inductionHypothesis]
        by_cases later : peer ∈ rest.map Prod.fst
        · rw [if_pos later, if_pos (List.mem_cons_of_mem _ later)]
        · rw [if_neg later, if_neg, List.cons_append]
          intro member
          rcases List.mem_cons.mp member with isFirst | isLater
          · exact same isFirst.symm
          · exact later isLater

theorem lookup_cons_of_ne {key : PeerId} (standing : Standing) (other : peer ≠ key) :
    ((key, standing) :: entries).lookup peer = entries.lookup peer := by
  rw [List.lookup_cons, beq_false_of_ne other]

theorem lookup_store (standing : Standing) (entries : List (PeerId × Standing)) (other : PeerId) :
    (store peer standing entries).lookup other =
      if other = peer then some standing else entries.lookup other := by
  induction entries with
  | nil =>
      by_cases asked : other = peer
      · simp [store, asked]
      · rw [if_neg asked]
        exact lookup_cons_of_ne standing asked
  | cons entry rest inductionHypothesis =>
      obtain ⟨key, old⟩ := entry
      unfold store
      by_cases same : key = peer
      · subst same
        rw [if_pos rfl]
        by_cases asked : other = key
        · simp [asked]
        · rw [if_neg asked, lookup_cons_of_ne standing asked, lookup_cons_of_ne old asked]
      · rw [if_neg same]
        by_cases asked : other = key
        · subst asked
          simp [same]
        · rw [lookup_cons_of_ne old asked, lookup_cons_of_ne old asked]
          exact inductionHypothesis

/-- With distinct keys a filter keeps or drops the one entry that a look-up finds. -/
theorem lookup_filter (distinct : (entries.map Prod.fst).Nodup) (keep : Standing → Bool) :
    (entries.filter fun entry => keep entry.2).lookup peer = (entries.lookup peer).filter keep := by
  induction entries with
  | nil => rfl
  | cons entry rest inductionHypothesis =>
      obtain ⟨key, standing⟩ := entry
      rw [List.map_cons, List.nodup_cons] at distinct
      have others := inductionHypothesis distinct.2
      by_cases found : peer = key
      · subst found
        have nowhere : rest.lookup peer = none := by
          rw [List.lookup_eq_none_iff]
          intro entry member
          rw [bne_iff_ne]
          intro same
          exact distinct.1 (List.mem_map.mpr ⟨entry, member, same.symm⟩)
        rw [nowhere, Option.filter_none] at others
        rw [List.filter_cons, List.lookup_cons_self, Option.filter_some]
        split
        · exact List.lookup_cons_self
        · exact others
      · rw [List.filter_cons, lookup_cons_of_ne standing found]
        split
        · rw [lookup_cons_of_ne standing found]
          exact others
        · exact others

end Entries

variable {ledger : Ledger}

theorem find?_prune (distinct : ledger.Distinct) (now : Instant) (peer : PeerId) :
    (ledger.prune now).find? peer = ledger.find? peer ∨
      (ledger.prune now).find? peer = (ledger.find? peer).filter fun standing =>
        !standing.isStale now := by
  unfold prune
  split
  · exact .inr (lookup_filter distinct fun standing => !standing.isStale now)
  · exact .inl rfl

theorem distinct_prune (distinct : ledger.Distinct) (now : Instant) :
    (ledger.prune now).Distinct := by
  unfold prune
  split
  · exact distinct.sublist (List.Sublist.map _ List.filter_sublist)
  · exact distinct

theorem distinct_store (distinct : ledger.Distinct) (peer : PeerId) (standing : Standing) :
    Distinct { ledger with entries := store peer standing ledger.entries } := by
  unfold Distinct
  dsimp only
  rw [map_fst_store]
  split
  · exact distinct
  · rename_i fresh
    refine List.nodup_append.mpr ⟨distinct, List.pairwise_singleton _ _, ?_⟩
    intro earlier member added isAdded equal
    rw [List.mem_singleton.mp isAdded] at equal
    exact fresh (equal ▸ member)

@[simp] theorem policy_prune (now : Instant) : (ledger.prune now).policy = ledger.policy := by
  unfold prune
  split <;> rfl

/-- An adjustment goes by what is left of the peer's standing after pruning, and leaves the standing of
every other peer as pruning left it. -/
theorem find?_adjust (ledger : Ledger) (looked now : Instant) (peer : PeerAddress)
    (adjustment : Adjustment) (other : PeerId) :
    (ledger.adjust looked now peer adjustment).ledger.find? other =
      if other = peer.peerId then
        some ((((ledger.prune looked).find? peer.peerId).getD {}).adjust ledger.policy now
          adjustment.change).2
      else (ledger.prune looked).find? other :=
  lookup_store _ (ledger.prune looked).entries other

end Ledger

end PeerLink.Reputation
