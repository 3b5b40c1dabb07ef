import PeerLink.Address
import PeerLink.LogLine
import PeerLink.Reputation.Adjustment
import PeerLink.Reputation.Policy

/-!
Contract: scores and bans of peers.

Each peer starts at the neutral score 0. An adjustment moves its score, never above the policy's
maximum. A peer that falls to the threshold is banned, its score starts again at 0, and the verdict
asks for it to be dropped. An entry with score 0 and no running ban says nothing, and such entries
go when more peers are tracked than the policy allows.

Owns: instants, the standing of one peer, and the ledger of all peers, which are told apart by peer
id alone.

Does not own: the clock; each operation is told what it reads.
-/

namespace PeerLink.Reputation

/-- A reading of the monotonic clock, in nanoseconds. -/
abbrev Instant := Nat

def nanosPerSecond : Nat := 1000000000

/-- The number of seconds that the clock can count to. -/
def clockRange : Nat := 9223372036854775808

/-- The instant some seconds after another. The clock counts seconds in a signed word of 64 bits, so
there is none when the sum does not fit. -/
def Instant.after? (now : Instant) (seconds : Nat) : Option Instant :=
  if now / nanosPerSecond + seconds < clockRange then some (now + seconds * nanosPerSecond) else none

/-- The text raised when a ban would end beyond the clock's range. -/
def clockOverflow : String := "overflow when adding duration to instant"

/-- The score nearest to a number: sums are held at the ends of the range instead of wrapping. -/
def saturate (sum : Int) : Int32 :=
  if sum < Int32.minValue.toInt then Int32.minValue
  else if Int32.maxValue.toInt < sum then Int32.maxValue
  else Int32.ofInt sum

structure Standing where
  /-- The score; 0 is neutral. -/
  score : Int32 := 0
  /-- When the latest ban ends, if there was one. -/
  bannedUntil : Option Instant := none
deriving DecidableEq, Repr, Inhabited

inductive Verdict where
  | keep
  | disconnect
  /-- The end of the ban is beyond the clock's range. -/
  | clockOverflow
deriving DecidableEq, Repr

namespace Standing

def isBanned (standing : Standing) (now : Instant) : Bool :=
  match standing.bannedUntil with
  | some deadline => now < deadline
  | none => false

/-- Whether the standing is no different from that of a peer never heard of. -/
def isStale (standing : Standing) (now : Instant) : Bool :=
  standing.score == 0 && !standing.isBanned now

/-- The score after a change: saturated, then capped. -/
def raised (standing : Standing) (policy : Policy) (change : Int) : Int32 :=
  let sum := saturate (standing.score.toInt + change)
  if policy.maxScore < sum then policy.maxScore else sum

/-- Applies a change. A score at the threshold or below it is reset and the peer is banned; when the
end of that ban is out of range the score is reset all the same and the earlier ban stays. -/
def adjust (standing : Standing) (policy : Policy) (now : Instant) (change : Int) :
    Verdict × Standing :=
  let score := standing.raised policy change
  if score ≤ policy.disconnectThreshold then
    match Instant.after? now policy.banPeriodSecs with
    | some deadline => (.disconnect, { score := 0, bannedUntil := some deadline })
    | none => (.clockOverflow, { standing with score := 0 })
  else (.keep, { standing with score := score })

end Standing

/-- The standings of all tracked peers, each under its peer id. -/
structure Ledger where
  policy : Policy
  entries : List (PeerId × Standing) := []
deriving DecidableEq, Repr

namespace Ledger

def find? (ledger : Ledger) (peer : PeerId) : Option Standing := ledger.entries.lookup peer

/-- The score of a peer; an untracked one is neutral. -/
def score (ledger : Ledger) (peer : PeerId) : Int32 := (ledger.find? peer).elim 0 Standing.score

/-- Whether the peer may be dialled, that is, no ban of it is running. -/
def allowsDialling (ledger : Ledger) (now : Instant) (peer : PeerAddress) : Bool :=
  (ledger.find? peer.peerId).all fun standing => !standing.isBanned now

def trackedCount (ledger : Ledger) : Nat := ledger.entries.length

/-- Puts a standing under a peer id, in place of the one there or after all others. -/
def store (peer : PeerId) (standing : Standing) :
    List (PeerId × Standing) → List (PeerId × Standing)
  | [] => [(peer, standing)]
  | entry :: rest =>
      if entry.1 = peer then (peer, standing) :: rest else entry :: store peer standing rest

/-- Drops the entries that say nothing, if more peers are tracked than the policy allows. -/
def prune (ledger : Ledger) (now : Instant) : Ledger :=
  if ledger.policy.maxTrackedPeers < ledger.trackedCount then
    { ledger with entries := ledger.entries.filter fun entry => !entry.2.isStale now }
  else ledger

def dropLine (ledger : Ledger) (peer : PeerAddress) : LogLine :=
  ⟨.debug, "Peer reputation below threshold",
    [("peer", peer.text), ("ban_secs", toString ledger.policy.banPeriodSecs)]⟩

structure Adjusted where
  verdict : Verdict
  ledger : Ledger
  log : List LogLine
deriving DecidableEq, Repr

/-- Applies an adjustment to a peer, after pruning. The clock is read once to see which bans are over
and again for the ban that the adjustment may lead to. Only a verdict to disconnect is logged. -/
def adjust (ledger : Ledger) (looked now : Instant) (peer : PeerAddress) (adjustment : Adjustment) :
    Adjusted :=
  let pruned := ledger.prune looked
  let earlier := (pruned.find? peer.peerId).getD {}
  let (verdict, later) := earlier.adjust ledger.policy now adjustment.change
  { verdict := verdict
    ledger := { pruned with entries := store peer.peerId later pruned.entries }
    log := if verdict = .disconnect then [ledger.dropLine peer] else [] }

end Ledger

end PeerLink.Reputation
