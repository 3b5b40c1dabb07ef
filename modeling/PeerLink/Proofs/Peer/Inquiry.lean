import Mathlib.Data.List.Basic
import PeerLink.Proofs.Peer.Moves

/-!
Contract: the inquiry of a peer into who the other side is, and the steps in which it goes on.

The inquiry is the part of a peer that its identify exchanges consist of: those that were asked for
and have not begun, those that are held or were let go, what was asked and answered, and what was kept
and reported. Any number of exchanges may be under way, for the peer itself or for a caller.

Owns: the inquiry, its steps, and what holds of it at all times.

Does not own: the proof that every move is such a step.
-/

namespace PeerLink.Peer

def Identification.agent? : Identification → Option String
  | answered agent => agent
  | failed _ => none

/-- What is reported of an answer to a check when this identity is kept. -/
def Identification.report? (kept : Option ClientIdentity) : Identification → Option Occurrence
  | answered (some _) => kept.map .identityResolved
  | answered none => none
  | failed fault => some (.identityLookupFailed fault.text)

/-- What was answered, if it was a check. -/
def HeldIdentify.checked? (answer : HeldIdentify) : Option Identification :=
  match answer.inquirer with
  | .check => some answer.outcome
  | .caller => none

def Note.inquirer? : Note → Option Inquirer
  | identifyAsked inquirer => some inquirer
  | _ => none

def Note.answer? : Note → Option HeldIdentify
  | identified inquirer outcome => some ⟨inquirer, outcome⟩
  | _ => none

/-- What a note reports of the identity. -/
def Note.finding? : Note → Option Occurrence
  | emitted (.identityResolved identity) => some (.identityResolved identity)
  | emitted (.identityLookupFailed error) => some (.identityLookupFailed error)
  | _ => none

def Turn.inquirer? : Turn → Option Inquirer
  | identify inquirer => some inquirer
  | _ => none

def Turn.answer? : Turn → Option HeldIdentify
  | identified held => some held
  | _ => none

/-- Whether a note is about the identity or an exchange. -/
def Note.isInquiry : Note → Bool
  | identifyAsked _ | identified _ _ | emitted (.identityResolved _)
  | emitted (.identityLookupFailed _) => true
  | _ => false

/-- Whether a turn is about an exchange. -/
def Turn.isInquiry : Turn → Bool
  | identify _ | identified _ => true
  | _ => false

theorem Note.unread_of_isInquiry {note : Note} (other : note.isInquiry = false) :
    note.inquirer? = none ∧ note.answer? = none ∧ note.finding? = none := by
  cases note with
  | emitted occurrence =>
      cases occurrence with
      | identityResolved | identityLookupFailed => cases other
      | _ => exact ⟨rfl, rfl, rfl⟩
  | identifyAsked | identified => cases other
  | _ => exact ⟨rfl, rfl, rfl⟩

theorem Turn.unread_of_isInquiry {turn : Turn} (other : turn.isInquiry = false) :
    turn.inquirer? = none ∧ turn.answer? = none := by
  cases turn with
  | identify | identified => cases other
  | _ => exact ⟨rfl, rfl⟩

structure Inquiry where
  identity : IdentitySlot
  /-- Who asked for an exchange that has not begun. -/
  due : List Inquirer
  /-- The exchanges that are held. -/
  held : List HeldIdentify
  /-- The exchanges that were held and are about to end. -/
  told : List HeldIdentify
  /-- For whom the remote side was asked, in order. -/
  asked : List Inquirer
  /-- The answers, in the order in which they were taken note of. -/
  answered : List HeldIdentify
  findings : List Occurrence

def inquiry (peer : Peer) : Inquiry where
  identity := peer.identity
  due := peer.line.filterMap Turn.inquirer?
  held := peer.heldIdentifies
  told := peer.line.filterMap Turn.answer?
  asked := peer.account.filterMap Note.inquirer?
  answered := peer.account.filterMap Note.answer?
  findings := peer.account.filterMap Note.finding?

namespace Inquiry

/-- The answers to checks. -/
def checked (inquiry : Inquiry) : List Identification :=
  inquiry.answered.filterMap HeldIdentify.checked?

/-- Exchanges are asked for. -/
def ask (before : Inquiry) (inquirers : List Inquirer) : Inquiry :=
  { before with due := before.due ++ inquirers }

/-- An exchange begins: the remote side is asked. -/
def begin (before : Inquiry) (inquirer : Inquirer) (rest : List Inquirer) : Inquiry :=
  { before with due := rest, asked := before.asked ++ [inquirer] }

/-- An exchange ends. Only a check is kept and reported, and an identity kept already stays. -/
def conclude (before : Inquiry) (answer : HeldIdentify) : Inquiry :=
  let agent? := answer.checked?.bind Identification.agent?
  let kept := before.identity.kept.or (agent?.map ClientIdentity.ofAgent)
  { before with
    identity := { kept := kept }
    answered := before.answered ++ [answer]
    findings := before.findings ++
      answer.checked?.toList.filterMap (Identification.report? kept) }

/-- A way in which the inquiry goes on once its exchanges are asked for. -/
inductive Step (before : Inquiry) : Inquiry → Prop where
  | stays : Step before before
  | holds (inquirer : Inquirer) (rest : List Inquirer) (due : before.due = inquirer :: rest)
      (outcome : Identification) :
      Step before
        { before.begin inquirer rest with held := before.held ++ [⟨inquirer, outcome⟩] }
  /-- An exchange begins and ends in the same turn. -/
  | hears (inquirer : Inquirer) (rest : List Inquirer) (due : before.due = inquirer :: rest)
      (outcome : Identification) :
      Step before ((before.begin inquirer rest).conclude ⟨inquirer, outcome⟩)
  | releases (answer : HeldIdentify) (rest : List HeldIdentify)
      (held : before.held = answer :: rest) :
      Step before { before with held := rest, told := before.told ++ [answer] }
  | concludes (answer : HeldIdentify) (rest : List HeldIdentify)
      (told : before.told = answer :: rest) :
      Step before ({ before with told := rest }.conclude answer)

/-! ## What holds at all times -/

/-- The identity kept is that of the first agent string that came, and reports follow the answers. -/
structure Faithful (inquiry : Inquiry) : Prop where
  kept : inquiry.identity.kept =
    (inquiry.checked.findSome? Identification.agent?).map ClientIdentity.ofAgent
  findings : inquiry.findings =
    inquiry.checked.filterMap (Identification.report? inquiry.identity.kept)

/-- Of the exchanges that were wanted the first ones have begun, in order, and each of these was
answered or is under way. -/
structure Balanced (wanted : List Inquirer) (inquiry : Inquiry) : Prop where
  wanted : inquiry.asked ++ inquiry.due = wanted
  asked : ∀ inquirer, inquiry.asked.count inquirer =
    inquiry.answered.countP (·.inquirer == inquirer) +
      inquiry.held.countP (·.inquirer == inquirer) +
      inquiry.told.countP (·.inquirer == inquirer)

section Laws

variable {before after : Inquiry}

/-- As long as no agent string came, it makes no difference to the reports what is kept. -/
theorem report?_of_unknown {answers : List Identification}
    (unknown : answers.findSome? Identification.agent? = none) (kept other : Option ClientIdentity) :
    answers.filterMap (Identification.report? kept) =
      answers.filterMap (Identification.report? other) := by
  refine List.filterMap_congr fun answer member => ?_
  have noAgent := List.findSome?_eq_none_iff.mp unknown answer member
  cases answer with
  | failed => rfl
  | answered agent =>
      obtain rfl : agent = none := noAgent
      rfl

theorem checked_conclude (before : Inquiry) (answer : HeldIdentify) :
    (before.conclude answer).checked = before.checked ++ answer.checked?.toList := by
  show (before.answered ++ [answer]).filterMap HeldIdentify.checked? = _
  rw [List.filterMap_append, checked]
  cases checked : answer.checked? <;> simp [checked]

theorem Faithful.conclude (faithful : before.Faithful) (answer : HeldIdentify) :
    (before.conclude answer).Faithful := by
  obtain ⟨kept, findings⟩ := faithful
  constructor
  · rw [checked_conclude, List.findSome?_append, Option.map_or, ← kept]
    cases checked : answer.checked? <;> simp [Inquiry.conclude, checked]
  · -- What was reported of earlier answers is what would be reported now.
    have earlier : before.checked.filterMap
        (Identification.report? (before.conclude answer).identity.kept) = before.findings := by
      rw [findings]
      cases known : before.identity.kept with
      | some identity => simp [Inquiry.conclude, known]
      | none =>
          rw [known] at kept
          exact report?_of_unknown (Option.map_eq_none_iff.mp kept.symm) _ _
    rw [checked_conclude, List.filterMap_append, earlier]
    rfl

theorem Step.faithful (step : Step before after) (faithful : before.Faithful) : after.Faithful := by
  cases step with
  | stays | holds | releases => exact ⟨faithful.kept, faithful.findings⟩
  | hears inquirer rest due outcome =>
      have begun : (before.begin inquirer rest).Faithful := ⟨faithful.kept, faithful.findings⟩
      exact begun.conclude _
  | concludes answer rest told =>
      have taken : { before with told := rest }.Faithful := ⟨faithful.kept, faithful.findings⟩
      exact taken.conclude _

theorem Step.balanced {wanted : List Inquirer} (step : Step before after)
    (balanced : before.Balanced wanted) : after.Balanced wanted := by
  obtain ⟨all, asked⟩ := balanced
  cases step with
  | stays => exact ⟨all, asked⟩
  | holds inquirer rest due | hears inquirer rest due =>
      refine ⟨?_, fun other => ?_⟩
      · simpa [begin, conclude, due] using all
      · have counted := asked other
        simp only [begin, conclude, List.count_append, List.countP_append, List.count_singleton,
          List.countP_singleton] at counted ⊢
        omega
  | releases answer rest held =>
      refine ⟨all, fun other => ?_⟩
      have counted := asked other
      simp only [held, List.countP_cons, List.countP_append, List.countP_nil] at counted ⊢
      omega
  | concludes answer rest told =>
      refine ⟨all, fun other => ?_⟩
      have counted := asked other
      simp only [conclude, told, List.countP_cons, List.countP_append, List.countP_nil] at counted ⊢
      omega

/-- An identity that is kept stays. -/
theorem Step.keeps (step : Step before after) {identity : ClientIdentity}
    (kept : before.identity.kept = some identity) : after.identity.kept = some identity := by
  cases step with
  | stays | holds | releases => exact kept
  | hears | concludes => simp [conclude, begin, kept]

theorem Faithful.ask (faithful : before.Faithful) (inquirers : List Inquirer) :
    (before.ask inquirers).Faithful :=
  ⟨faithful.kept, faithful.findings⟩

theorem Balanced.ask {wanted : List Inquirer} (balanced : before.Balanced wanted)
    (inquirers : List Inquirer) : (before.ask inquirers).Balanced (wanted ++ inquirers) where
  wanted := by
    rw [← balanced.wanted]
    exact (List.append_assoc ..).symm
  asked := balanced.asked

/-- Every answer to a check is reported, except one without an agent string. -/
theorem Faithful.length_checked (faithful : before.Faithful) :
    before.checked.length = before.findings.length + before.checked.count (.answered none) := by
  have reported : ∀ answer ∈ before.checked,
      (answer.report? before.identity.kept).isSome ↔ decide (¬ answer == .answered none) := by
    intro answer member
    rcases answer with ⟨_ | agent⟩ | fault
    · simp [Identification.report?]
    · -- With an agent string an identity is kept, this one or an earlier one.
      have known : before.checked.findSome? Identification.agent? ≠ none := fun unknown =>
        Option.some_ne_none agent (List.findSome?_eq_none_iff.mp unknown _ member)
      obtain ⟨first, isFirst⟩ := Option.ne_none_iff_exists'.mp known
      simp [Identification.report?, faithful.kept, isFirst]
    · simp [Identification.report?]
  rw [faithful.findings, List.length_filterMap_eq_countP, List.countP_congr reported, Nat.add_comm]
  exact List.length_eq_countP_add_countP _

end Laws

end Inquiry

end PeerLink.Peer
