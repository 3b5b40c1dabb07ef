import PeerLink.Proofs.Peer.Moves

/-!
Contract: which goodbye ends in a move, and how.

The handler of a clean disconnect runs in the background. It ends in the turn in which it is asked, or
later: in the turn after it was told how to end, or in the turn that finds its request with a result or
past its deadline. Which of these it is, and with what outcome, can be read off the peer before the
move, without a look at what the move reports.

Owns: the goodbye that ends in a move, and those that end in a history.

Does not own: what is reported of them.
-/

namespace PeerLink.Peer

/-- The fault with which a goodbye request ends in the turn that makes it, if it does. -/
def requestFault? (peer : Peer) (clock : Clock) (timeoutMs : Nat) : Option DisconnectError :=
  if peer.table.supports .goodbye then
    if clock.hasSeen (clock.now + timeoutMs) then some .timeout else none
  else some (.goodbye (.unknownMethod .goodbye))

/-- How the installed handler ends in the turn that asks it, if it does. -/
def promptOutcome? (peer : Peer) (clock : Clock) : Option GoodbyeOutcome :=
  match peer.handler with
  | none => none
  | some (.scripted outcome) => outcome
  | some (.request timeoutMs) => (peer.requestFault? clock timeoutMs).map .failed

/-- The clean disconnect whose goodbye ends in the next turn, and how it ends. Without a handler there
is no goodbye, and only the clean disconnect that wrote the record says one. -/
def turnEnds? (peer : Peer) (clock : Clock) : Option (Farewell × GoodbyeOutcome) :=
  match peer.line with
  | .farewell farewell true :: _ =>
      (peer.promptOutcome? clock).map fun outcome => (farewell, outcome)
  | .goodbyeTold farewell outcome :: _ => some (farewell, outcome)
  | .goodbyeDue exchange :: _ =>
      match exchange.caller with
      | .farewell number => some (⟨number, exchange.reason⟩, peer.exchangeOutcome exchange)
      | .outside => none
  | _ => none

def ends? (peer : Peer) : Move → Option (Farewell × GoodbyeOutcome)
  | .turn clock => peer.turnEnds? clock
  | _ => none

section Turns

variable {peer : Peer} {clock : Clock} {farewell : Farewell} {outcome : GoodbyeOutcome}
  {rest : List Turn}

theorem ends_of_prompt (line : peer.line = .farewell farewell true :: rest)
    (prompt : peer.promptOutcome? clock = some outcome) :
    peer.ends? (.turn clock) = some (farewell, outcome) := by
  rw [ends?, turnEnds?, line]
  exact congrArg (Option.map _) prompt

theorem ends_of_told (line : peer.line = .goodbyeTold farewell outcome :: rest) :
    peer.ends? (.turn clock) = some (farewell, outcome) := by
  rw [ends?, turnEnds?, line]

theorem ends_of_due {exchange : GoodbyeExchange} {number : Nat}
    (line : peer.line = .goodbyeDue exchange :: rest) (caller : exchange.caller = .farewell number) :
    peer.ends? (.turn clock) = some (⟨number, exchange.reason⟩, peer.exchangeOutcome exchange) := by
  simp only [ends?, turnEnds?, line, caller]

end Turns

/-- The goodbyes that end in a history, in order. -/
def goodbyesEnded (peer : Peer) : List Move → List (Farewell × GoodbyeOutcome)
  | [] => []
  | move :: rest => (peer.ends? move).toList ++ (peer.move move).goodbyesEnded rest

/-- A goodbye that ends in a history ends in one of its turns. -/
theorem exists_turn_of_ended {peer : Peer} {moves : List Move} {farewell : Farewell}
    {outcome : GoodbyeOutcome} (ended : (farewell, outcome) ∈ peer.goodbyesEnded moves) :
    ∃ earlier clock later, moves = earlier ++ .turn clock :: later ∧
      (peer.play earlier).turnEnds? clock = some (farewell, outcome) := by
  induction moves generalizing peer with
  | nil => cases ended
  | cons move rest inductionHypothesis =>
      rcases List.mem_append.mp ended with now | afterwards
      · cases move with
        | turn clock => exact ⟨[], clock, rest, rfl, Option.mem_toList.mp now⟩
        | _ => cases now
      · obtain ⟨earlier, clock, later, rfl, ends⟩ := inductionHypothesis afterwards
        exact ⟨move :: earlier, clock, later, rfl, ends⟩

end PeerLink.Peer
