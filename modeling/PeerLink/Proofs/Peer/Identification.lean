import PeerLink.Proofs.Peer.Footprint
import PeerLink.Proofs.Peer.Inquiry

/-!
Contract: the identity of a peer, its reports, and the round trips that it takes.

Every move takes the inquiry at most one step further, and only two kinds of moves ask for an exchange.
Everything else that a peer does leaves the inquiry alone.

Owns: the steps of each move, and what is promised of the identity.

Does not own: the laws of the inquiry itself.
-/

namespace PeerLink.Peer

/-! ## Noting and enlisting -/

theorem filterMap_concat {α β : Type} (read : α → Option β) (items : List α) (last : α) :
    (items ++ [last]).filterMap read = items.filterMap read ++ (read last).toList := by
  rw [List.filterMap_append]
  cases value : read last <;> simp [value]

/-- A note adds what it says of the inquiry. -/
theorem inquiry_noted (peer : Peer) (note : Note) :
    (peer.note note).inquiry =
      { peer.inquiry with
        asked := peer.inquiry.asked ++ note.inquirer?.toList
        answered := peer.inquiry.answered ++ note.answer?.toList
        findings := peer.inquiry.findings ++ note.finding?.toList } := by
  simp only [inquiry, Peer.note, filterMap_concat]

/-- A turn that is put in the line adds what it says of the inquiry. -/
theorem inquiry_enlisted (peer : Peer) (turn : Turn) :
    (peer.enlist turn).inquiry =
      { peer.inquiry with
        due := peer.inquiry.due ++ turn.inquirer?.toList
        told := peer.inquiry.told ++ turn.answer?.toList } := by
  simp only [inquiry, enlist, filterMap_concat]

/-! ## What the inquiry does not show -/

/-- Whether a change of this aspect shows in the inquiry. -/
def Aspect.inInquiry : Aspect → Bool
  | .identification => true
  | _ => false

theorem Note.inInquiry_aspect (note : Note) : note.aspect.inInquiry = note.isInquiry := by
  cases note with
  | emitted occurrence => cases occurrence <;> rfl
  | _ => rfl

theorem Turn.inInquiry_aspect (turn : Turn) : turn.aspect.inInquiry = turn.isInquiry := by
  cases turn <;> rfl

section Untouched

variable {before after : Peer}

theorem Change.inquiry_eq {aspect : Aspect} (change : Change before aspect after)
    (unseen : aspect.inInquiry = false) : after.inquiry = before.inquiry := by
  cases change with
  | note note =>
      rw [Note.inInquiry_aspect] at unseen
      simp [inquiry_noted, Note.unread_of_isInquiry unseen]
  | enlist turn =>
      rw [Turn.inInquiry_aspect] at unseen
      simp [inquiry_enlisted, Turn.unread_of_isInquiry unseen]
  | identity | heldIdentifies => cases unseen
  | _ => rfl

theorem ChangesOnly.inquiry_eq {aspects : List Aspect} (changes : before.ChangesOnly aspects after)
    (unseen : aspects.any Aspect.inInquiry = false) : after.inquiry = before.inquiry :=
  changes.view_eq Change.inquiry_eq unseen

end Untouched

/-! ## Moves -/

/-- For whom an exchange is asked for in a move. A check asks for one only while no identity is
kept. -/
def inquirers (peer : Peer) : Move → List Inquirer
  | .checkIdentity => if peer.identity.isResolved then [] else [.check]
  | .lookUpAgent => [.caller]
  | _ => []

theorem resolve_eq (slot : IdentitySlot) (identity : ClientIdentity) :
    slot.resolve identity = (slot.kept.getD identity, ⟨slot.kept.or (some identity)⟩) := by
  obtain ⟨_ | earlier⟩ := slot <;> rfl

section Moves

variable (peer : Peer)

theorem inquiry_checkIdentity :
    peer.checkIdentity.inquiry = peer.inquiry.ask (peer.inquirers .checkIdentity) := by
  unfold checkIdentity inquirers Inquiry.ask
  split
  · rw [List.append_nil]
  · rw [inquiry_enlisted]
    simp [Turn.inquirer?, Turn.answer?]

theorem inquiry_lookUpAgent : peer.lookUpAgent.inquiry = peer.inquiry.ask [.caller] := by
  rw [lookUpAgent, inquiry_enlisted]
  simp [Inquiry.ask, Turn.inquirer?, Turn.answer?]

theorem concludeIdentify_of_agent (agent : String) :
    peer.concludeIdentify .check (.answered (some agent)) =
      { peer.note (.identified .check (.answered (some agent))) with
        identity := ⟨peer.identity.kept.or (some (.ofAgent agent))⟩ }.emit
          (.identityResolved (peer.identity.kept.getD (.ofAgent agent))) := by
  unfold concludeIdentify
  dsimp only
  rw [resolve_eq]
  rfl

theorem inquiry_concludeIdentify (inquirer : Inquirer) (outcome : Identification) :
    (peer.concludeIdentify inquirer outcome).inquiry =
      peer.inquiry.conclude ⟨inquirer, outcome⟩ := by
  have noted : (peer.note (.identified inquirer outcome)).inquiry =
      { peer.inquiry with answered := peer.inquiry.answered ++ [⟨inquirer, outcome⟩] } := by
    rw [inquiry_noted]
    simp [Note.inquirer?, Note.answer?, Note.finding?]
  cases inquirer with
  | caller =>
      refine noted.trans ?_
      simp [Inquiry.conclude, HeldIdentify.checked?]
  | check =>
      rcases outcome with ⟨_ | agent⟩ | fault
      · refine noted.trans ?_
        simp [Inquiry.conclude, HeldIdentify.checked?, Identification.agent?, Identification.report?]
      · have kept : { peer.note (.identified .check (.answered (some agent))) with
            identity := ⟨peer.identity.kept.or (some (.ofAgent agent))⟩ }.inquiry =
              { peer.inquiry with
                identity := ⟨peer.identity.kept.or (some (.ofAgent agent))⟩
                answered := peer.inquiry.answered ++ [⟨.check, .answered (some agent)⟩] } := by
          simp [inquiry, Peer.note, Note.inquirer?, Note.answer?, Note.finding?]
        rw [concludeIdentify_of_agent, emit, inquiry_noted, kept]
        simp [Inquiry.conclude, HeldIdentify.checked?, Identification.agent?,
          Identification.report?, Note.inquirer?, Note.answer?, Note.finding?, inquiry]
      · refine (inquiry_noted _ _).trans ?_
        rw [noted]
        simp [Inquiry.conclude, HeldIdentify.checked?, Identification.agent?, Identification.report?,
          Note.inquirer?, Note.answer?, Note.finding?]

theorem step_identify {inquirer : Inquirer} {rest : List Turn}
    (line : peer.line = .identify inquirer :: rest) :
    Inquiry.Step peer.inquiry ({ peer with line := rest }.identify inquirer).inquiry := by
  have due : peer.inquiry.due = inquirer :: rest.filterMap Turn.inquirer? := by
    rw [inquiry, line]
    rfl
  have asked (connection : Connection) :
      ({ peer with line := rest, connection := connection }.note (.identifyAsked inquirer)).inquiry =
        peer.inquiry.begin inquirer (rest.filterMap Turn.inquirer?) := by
    rw [inquiry_noted]
    have answers : peer.inquiry.told = rest.filterMap Turn.answer? := by
      rw [inquiry, line]
      rfl
    simp [Inquiry.begin, ← answers, inquiry, Note.inquirer?, Note.answer?, Note.finding?]
  unfold identify
  dsimp only
  split
  · have began := asked peer.connection.identify.2
    have holds := Inquiry.Step.holds inquirer _ due peer.connection.identify.1.outcome
    rw [← began] at holds
    exact holds
  · rw [inquiry_concludeIdentify, asked]
    exact .hears inquirer _ due _

theorem step_identified {answer : HeldIdentify} {rest : List Turn}
    (line : peer.line = .identified answer :: rest) :
    Inquiry.Step peer.inquiry
      ({ peer with line := rest }.concludeIdentify answer.inquirer answer.outcome).inquiry := by
  rw [inquiry_concludeIdentify]
  have taken : { peer with line := rest }.inquiry =
      { peer.inquiry with told := rest.filterMap Turn.answer? } := by
    have others : peer.inquiry.due = rest.filterMap Turn.inquirer? := by
      rw [inquiry, line]
      rfl
    simp [inquiry, ← others]
  rw [taken]
  apply Inquiry.Step.concludes answer
  rw [inquiry, line]
  rfl

theorem step_releaseIdentify : Inquiry.Step peer.inquiry peer.releaseIdentify.2.inquiry := by
  unfold releaseIdentify
  split
  · exact .stays
  · rename_i answer rest held
    rw [inquiry_enlisted]
    have released : Inquiry.Step peer.inquiry { peer.inquiry with
        held := rest
        told := peer.inquiry.told ++ [answer] } := .releases answer rest held
    simpa [inquiry, Turn.inquirer?, Turn.answer?] using released

/-- A turn that is not about an exchange leaves the inquiry alone. -/
theorem inquiry_take (clock : Clock) {turn : Turn} (other : turn.isInquiry = false) :
    (peer.take clock turn).inquiry = peer.inquiry := by
  cases turn with
  | watch => exact peer.changes_watch.inquiry_eq rfl
  | close => exact peer.changes_close.inquiry_eq rfl
  | farewell farewell first => exact (peer.changes_beginFarewell clock farewell first).inquiry_eq rfl
  | goodbyeTold farewell outcome => exact (peer.changes_concludeFarewell farewell outcome).inquiry_eq rfl
  | goodbye reason timeoutMs => exact (peer.changes_beginGoodbye clock reason timeoutMs).inquiry_eq rfl
  | goodbyeDue exchange => exact (peer.changes_resumeExchange exchange).inquiry_eq rfl
  | identify | identified => cases other
  | call call => exact (peer.changes_makeCall call).inquiry_eq rfl
  | callTold call outcome => exact (peer.changes_tellCall call outcome).inquiry_eq rfl

theorem step_turn (clock : Clock) :
    Inquiry.Step peer.inquiry (peer.move (.turn clock)).inquiry := by
  cases line : peer.line with
  | nil =>
      rw [move_turn_of_nil line]
      exact .stays
  | cons turn rest =>
      rw [move_turn_of_cons line]
      by_cases concerns : turn.isInquiry
      · cases turn with
        | identify inquirer => exact peer.step_identify line
        | identified answer => exact peer.step_identified line
        | _ => cases concerns
      · have other : turn.isInquiry = false := Bool.eq_false_iff.mpr concerns
        obtain ⟨noInquirer, noAnswer⟩ := Turn.unread_of_isInquiry other
        have taken : { peer with line := rest }.inquiry = peer.inquiry := by
          simp [inquiry, line, noInquirer, noAnswer]
        have same := (inquiry_take { peer with line := rest } clock other).trans taken
        exact Eq.subst same.symm .stays

/-- A move asks for exchanges, or takes the inquiry a step further, or leaves it alone. -/
theorem step_move (move : Move) :
    Inquiry.Step (peer.inquiry.ask (peer.inquirers move)) (peer.move move).inquiry := by
  have unasked : peer.inquiry.ask [] = peer.inquiry := by
    simp [Inquiry.ask]
  have stays {later : Inquiry} (same : later = peer.inquiry) :
      Inquiry.Step (peer.inquiry.ask []) later := by
    rw [unasked, same]
    exact .stays
  cases move with
  | checkIdentity => exact Eq.subst peer.inquiry_checkIdentity.symm .stays
  | lookUpAgent => exact Eq.subst peer.inquiry_lookUpAgent.symm .stays
  | releaseIdentify => exact unasked.symm ▸ peer.step_releaseIdentify
  | turn clock => exact unasked.symm ▸ peer.step_turn clock
  | subscribe observer => exact stays ((peer.changes_subscribe observer).inquiry_eq rfl)
  | disconnectImmediately record =>
      exact stays ((peer.changes_disconnectImmediately record).inquiry_eq rfl)
  | disconnectCleanly reason => exact stays ((peer.changes_disconnectCleanly reason).inquiry_eq rfl)
  | adjust authority now adjustment =>
      exact stays ((peer.changes_adjust authority now adjustment).inquiry_eq rfl)
  | send method body sink => exact stays ((peer.changes_send method body sink).inquiry_eq rfl)
  | askGoodbye reason timeoutMs => exact stays ((peer.changes_enlist (.goodbye _ _)).inquiry_eq rfl)
  | remoteClose => exact stays (peer.changes_closeConnection.inquiry_eq rfl)
  | tellCall start outcome => exact stays ((peer.changes_tellOpenCall start outcome).inquiry_eq rfl)
  | tellGoodbye outcome => exact stays ((peer.changes_tellGoodbye outcome).inquiry_eq rfl)
  | cutStream method => exact stays ((peer.changes_note (.streamCut method)).inquiry_eq rfl)
  | wake ticket => exact stays ((peer.changes_wakeExchange ticket).inquiry_eq rfl)
  | unsubscribe | setHandler | installGoodbye | prepareIdentify | hold => exact stays rfl

end Moves

/-! ## Histories -/

/-- Whether a move looks up the agent string for a caller. -/
def Move.isLookUp : Move → Bool
  | .lookUpAgent => true
  | _ => false

/-- Whether a note is an event of this kind. -/
def Note.isReport (kind : String) : Note → Bool
  | .emitted occurrence => occurrence.kindName == kind
  | _ => false

/-- How many events of a kind the peer reported. -/
def reports (peer : Peer) (kind : String) : Nat := peer.account.countP (Note.isReport kind)

/-- For whom exchanges are asked for along a history, in order. -/
def inquirersOf (peer : Peer) : List Move → List Inquirer
  | [] => []
  | move :: rest => peer.inquirers move ++ (peer.move move).inquirersOf rest

theorem inquiry_create (settings : Settings) (address : PeerAddress) (publicKey : String)
    (dialled : Bool) (connection : Connection) (delegates : List Rpc.Delegate) :
    (create settings address publicKey dialled connection delegates).inquiry =
      ⟨{}, [], [], [], [], [], []⟩ := by
  simp [create, inquiry, List.filterMap_map, Function.comp_def, Note.inquirer?, Note.answer?,
    Note.finding?, Turn.inquirer?, Turn.answer?]

section Play

variable {peer : Peer} {wanted : List Inquirer}

theorem faithful_play (faithful : peer.inquiry.Faithful) (moves : List Move) :
    (peer.play moves).inquiry.Faithful := by
  induction moves generalizing peer with
  | nil => exact faithful
  | cons move rest inductionHypothesis =>
      apply inductionHypothesis
      exact (peer.step_move move).faithful (faithful.ask _)

theorem balanced_play (balanced : peer.inquiry.Balanced wanted) (moves : List Move) :
    (peer.play moves).inquiry.Balanced (wanted ++ peer.inquirersOf moves) := by
  induction moves generalizing peer wanted with
  | nil =>
      rw [inquirersOf, List.append_nil]
      exact balanced
  | cons move rest inductionHypothesis =>
      rw [inquirersOf, ← List.append_assoc]
      apply inductionHypothesis
      exact (peer.step_move move).balanced (balanced.ask _)

theorem keeps_play {identity : ClientIdentity} (kept : peer.identity.kept = some identity)
    (moves : List Move) : (peer.play moves).identity.kept = some identity := by
  induction moves generalizing peer with
  | nil => exact kept
  | cons move rest inductionHypothesis =>
      apply inductionHypothesis
      exact (peer.step_move move).keeps kept

/-- The exchanges for callers are those that were asked for directly. -/
theorem count_caller (peer : Peer) (moves : List Move) :
    (peer.inquirersOf moves).count .caller = moves.countP Move.isLookUp := by
  induction moves generalizing peer with
  | nil => rfl
  | cons move rest inductionHypothesis =>
      rw [inquirersOf, List.count_append, inductionHypothesis, List.countP_cons, Nat.add_comm]
      congr 1
      cases move with
      | checkIdentity =>
          show (if peer.identity.isResolved then [] else [Inquirer.check]).count .caller = 0
          split <;> rfl
      | _ => rfl

theorem length_eq_counts (inquirers : List Inquirer) :
    inquirers.length = inquirers.count .check + inquirers.count .caller := by
  induction inquirers with
  | nil => rfl
  | cons inquirer rest inductionHypothesis =>
      cases inquirer <;> simp [inductionHypothesis] <;> omega

/-- The events about the identity are of two kinds. -/
theorem length_findings (peer : Peer) :
    peer.inquiry.findings.length =
      peer.reports "IdentityResolved" + peer.reports "IdentityLookupFailed" := by
  unfold inquiry reports
  rw [List.length_filterMap_eq_countP]
  induction peer.account with
  | nil => rfl
  | cons note rest inductionHypothesis =>
      have here : (if note.finding?.isSome then 1 else 0) =
          (if note.isReport "IdentityResolved" then 1 else 0) +
            if note.isReport "IdentityLookupFailed" then 1 else 0 := by
        cases note with
        | emitted occurrence => cases occurrence <;> rfl
        | _ => rfl
      rw [List.countP_cons, List.countP_cons, List.countP_cons, inductionHypothesis, here]
      omega

end Play

/-- The checks that were answered are the answers to checks. -/
theorem length_checked (inquiry : Inquiry) :
    inquiry.checked.length = inquiry.answered.countP (·.inquirer == .check) := by
  unfold Inquiry.checked
  rw [List.length_filterMap_eq_countP]
  apply List.countP_congr
  intro answer member
  obtain ⟨inquirer, outcome⟩ := answer
  cases inquirer <;> simp [HeldIdentify.checked?]

/-- What a slot shows is settled by the agent string whose identity it keeps. -/
theorem shows_of_kept {slot : IdentitySlot} {agent? : Option String}
    (kept : slot.kept = agent?.map ClientIdentity.ofAgent) :
    slot.agent? = agent? ∧
      slot.clientType = (agent?.map ClientType.ofAgent).getD .unknown := by
  unfold IdentitySlot.agent? IdentitySlot.clientType
  rw [kept]
  cases agent? with
  | none => exact ⟨rfl, rfl⟩
  | some agent => simp

section Settled

variable {peer : Peer}

/-- An identity that was reported is the one kept. -/
theorem kept_of_reported (faithful : peer.inquiry.Faithful) {identity : ClientIdentity}
    (reported : .emitted (.identityResolved identity) ∈ peer.account) :
    peer.identity.kept = some identity := by
  have finding : .identityResolved identity ∈ peer.inquiry.findings :=
    List.mem_filterMap.mpr ⟨_, reported, rfl⟩
  rw [faithful.findings] at finding
  obtain ⟨answer, -, isReport⟩ := List.mem_filterMap.mp finding
  unfold Identification.report? at isReport
  split at isReport
  · obtain ⟨stored, isStored, same⟩ := Option.map_eq_some_iff.mp isReport
    obtain rfl := Occurrence.identityResolved.inj same
    exact isStored
  · cases isReport
  · cases isReport

/-- When the peer is at rest and no check is held, everything that was wanted was asked for, and every
check was answered. -/
theorem balance_of_rest {wanted : List Inquirer} (balanced : peer.inquiry.Balanced wanted)
    (atRest : peer.line = []) (notHeld : ∀ held ∈ peer.heldIdentifies, held.inquirer = .caller) :
    peer.inquiry.asked = wanted ∧ wanted.count .check = peer.inquiry.checked.length := by
  have due : peer.inquiry.due = [] := by
    simp [inquiry, atRest]
  have told : peer.inquiry.told = [] := by
    simp [inquiry, atRest]
  have held : peer.inquiry.held.countP (·.inquirer == .check) = 0 := by
    apply List.countP_eq_zero.mpr
    intro held member
    rw [notHeld held member]
    decide
  have all := balanced.wanted
  have answered := balanced.asked .check
  rw [due, List.append_nil] at all
  rw [all, told, held, ← length_checked] at answered
  exact ⟨all, answered⟩

end Settled

section Promised

-- What is promised of the client type holds of any classification of agent strings.
attribute [local irreducible] ClientType.ofAgent

/-- However the answers to identify exchanges arrive, and whatever else happens to the peer: agent
string and client type are unset until an agent string first arrives in answer to a check, and those of
that agent string ever after. Whenever an identity is reported, it is the one kept. When the peer is at
rest and no check is held, the remote side was asked once for every check made while the identity was
unset, besides direct lookups, and each of these checks led to one report or to an answer without an
agent string. -/
theorem identity_settled (settings : Settings) (address : PeerAddress) (publicKey : String)
    (dialled : Bool) (connection : Connection) (delegates : List Rpc.Delegate)
    (moves : List Move) :
    let start := create settings address publicKey dialled connection delegates
    let peer := start.play moves
    let first? := peer.inquiry.checked.findSome? Identification.agent?
    let checks := (start.inquirersOf moves).count .check
    (peer.identity.agent? = first? ∧
        peer.identity.clientType = (first?.map ClientType.ofAgent).getD .unknown) ∧
      (∀ agent, first? = some agent → ∀ later,
        (peer.play later).identity.agent? = some agent ∧
          (peer.play later).identity.clientType = .ofAgent agent) ∧
      (∀ identity, .emitted (.identityResolved identity) ∈ peer.account → ∀ later,
        (peer.play later).identity.kept = some identity) ∧
      peer.inquiry.findings =
        peer.inquiry.checked.filterMap (Identification.report? peer.identity.kept) ∧
      (peer.line = [] → (∀ held ∈ peer.heldIdentifies, held.inquirer = .caller) →
        peer.inquiry.asked.length = checks + moves.countP Move.isLookUp ∧
          checks = peer.reports "IdentityResolved" + peer.reports "IdentityLookupFailed" +
            peer.inquiry.checked.count (.answered none)) := by
  intro start peer first? checks
  have isFresh : start.inquiry = ⟨{}, [], [], [], [], [], []⟩ := inquiry_create ..
  have faithful : peer.inquiry.Faithful := by
    apply faithful_play
    rw [isFresh]
    exact ⟨rfl, rfl⟩
  have balanced : peer.inquiry.Balanced (start.inquirersOf moves) := by
    have initially : start.inquiry.Balanced [] := by
      rw [isFresh]
      exact ⟨rfl, fun _ => rfl⟩
    exact balanced_play initially moves
  have kept : peer.identity.kept = first?.map ClientIdentity.ofAgent := faithful.kept
  refine ⟨shows_of_kept kept, ?_, ?_, faithful.findings, ?_⟩
  · intro agent isFirst later
    rw [isFirst] at kept
    have lasts : (peer.play later).identity.kept = (some agent).map ClientIdentity.ofAgent :=
      keeps_play kept later
    exact shows_of_kept lasts
  · intro identity reported later
    exact keeps_play (kept_of_reported faithful reported) later
  · intro atRest notHeld
    obtain ⟨all, answered⟩ := balance_of_rest balanced atRest notHeld
    rw [faithful.length_checked, length_findings] at answered
    refine ⟨?_, answered⟩
    rw [all, length_eq_counts, count_caller]

end Promised

/-- Four checks and a direct lookup are under way at once. The first check is held and answered when
another agent string is kept already; one more check comes too late to ask. -/
def overtakenCheck : List Move :=
  [.prepareIdentify ⟨true, .answered (some "teku/v24.1.0")⟩,
    .prepareIdentify ⟨false, .failed (.identify "stream reset")⟩,
    .prepareIdentify ⟨false, .answered none⟩,
    .prepareIdentify ⟨false, .answered (some "Lighthouse/v4.5.0")⟩,
    .checkIdentity, .checkIdentity, .checkIdentity, .checkIdentity, .lookUpAgent] ++
    List.replicate 6 (.turn {}) ++ [.checkIdentity, .releaseIdentify, .turn {}]

theorem identity_settled_overtakenCheck :
    let start := create {} ⟨"peer", "/address"⟩ "key" true {} []
    let peer := start.play overtakenCheck
    peer.line = [] ∧ peer.identity.agent? = some "Lighthouse/v4.5.0" ∧
      peer.identity.clientType = .lighthouse ∧ peer.reports "IdentityResolved" = 2 ∧
      peer.reports "IdentityLookupFailed" = 1 ∧ peer.inquiry.asked.length = 5 ∧
      (start.inquirersOf overtakenCheck).count .check = 2 + 1 + 1 := by
  have atRest : ((create {} ⟨"peer", "/address"⟩ "key" true {} []).play overtakenCheck).line = [] := by
    decide +kernel
  obtain ⟨⟨agent, client⟩, -, -, -, settled⟩ := identity_settled {} ⟨"peer", "/address"⟩ "key" true
    {} [] overtakenCheck
  obtain ⟨-, checks⟩ := settled atRest (by decide +kernel)
  exact ⟨atRest, agent.trans (by decide +kernel), client.trans (by decide +kernel),
    by decide +kernel, by decide +kernel, by decide +kernel, checks.trans (by decide +kernel)⟩

end PeerLink.Peer
