import Mathlib.Data.List.Perm.Basic
import Mathlib.Logic.Relation
import PeerLink.Proofs.Keyed
import PeerLink.Proofs.Peer.Moves
import PeerLink.Proofs.Rpc.Channels

/-!
Contract: the books of the requests to disconnect.

The books count what a peer was asked to do about leaving and what came of it: calls from outside and
by observers, reports, requests to close that stand in the line and those that were made, and where
every clean disconnect is. They change in few ways, each of which keeps them in balance.

Owns: books, their steps, and the balance.

Does not own: the proof that every move consists of steps.
-/

namespace PeerLink.Peer

/-- What the account says about leaving. -/
inductive Entry where
  /-- The connection was asked to close. -/
  | close
  /-- An immediate disconnect was reported. -/
  | now
  /-- A clean disconnect was reported. -/
  | cleanly
  | byObserver
  | cleanlyByObserver
  /-- A handler was asked to say goodbye. -/
  | goodbye
deriving DecidableEq

def Note.entry? : Note → Option Entry
  | closeAsked => some .close
  | emitted (.disconnectRequested _ false) => some .now
  | emitted (.disconnectRequested _ true) => some .cleanly
  | reacted _ .disconnected => some .byObserver
  | reacted _ .disconnectedCleanly => some .cleanlyByObserver
  | goodbyeAsked _ _ => some .goodbye
  | _ => none

/-- What the line holds about leaving. -/
inductive Errand where
  | close
  | begins (number : Nat)
  /-- The goodbye of a clean disconnect is over. -/
  | ends (number : Nat)
deriving DecidableEq

/-- The clean disconnect for which a goodbye request is made. -/
def GoodbyeCaller.number? : GoodbyeCaller → Option Nat
  | farewell number => some number
  | outside => none

def Turn.errand? : Turn → Option Errand
  | close => some .close
  | farewell leaving _ => some (.begins leaving.number)
  | goodbyeTold leaving _ => some (.ends leaving.number)
  | goodbyeDue exchange => exchange.caller.number?.map .ends
  | _ => none

/-- The clean disconnects that begin, in order. -/
def beginnings : List Errand → List Nat
  | [] => []
  | .begins number :: rest => number :: beginnings rest
  | .close :: rest | .ends _ :: rest => beginnings rest

/-- The clean disconnects that end, in order. -/
def endings : List Errand → List Nat
  | [] => []
  | .ends number :: rest => number :: endings rest
  | .close :: rest | .begins _ :: rest => endings rest

@[simp] theorem beginnings_append (earlier later : List Errand) :
    beginnings (earlier ++ later) = beginnings earlier ++ beginnings later := by
  induction earlier with
  | nil => rfl
  | cons errand rest inductionHypothesis => cases errand <;> simp [beginnings, inductionHypothesis]

@[simp] theorem endings_append (earlier later : List Errand) :
    endings (earlier ++ later) = endings earlier ++ endings later := by
  induction earlier with
  | nil => rfl
  | cons errand rest inductionHypothesis => cases errand <;> simp [endings, inductionHypothesis]

theorem mem_beginnings {errands : List Errand} {number : Nat} (member : .begins number ∈ errands) :
    number ∈ beginnings errands := by
  obtain ⟨earlier, later, rfl⟩ := List.append_of_mem member
  simp [beginnings]

theorem mem_endings {errands : List Errand} {number : Nat} (member : .ends number ∈ errands) :
    number ∈ endings errands := by
  obtain ⟨earlier, later, rfl⟩ := List.append_of_mem member
  simp [endings]

/-- How many disconnects of either kind were asked for from outside. -/
structure Calls where
  now : Nat := 0
  cleanly : Nat := 0
deriving DecidableEq

structure Books where
  address : PeerAddress
  outside : Calls
  entries : List Entry
  errands : List Errand
  /-- How many clean disconnects were asked for. -/
  farewells : Nat
  /-- The clean disconnects whose handler waits to be told. -/
  held : List Nat
  /-- Goodbye requests under way, each with the clean disconnect it is made for. -/
  exchanges : List (Rpc.Ticket × Option Nat)
  /-- How many goodbye requests were accepted. -/
  accepted : Nat
  ended : List Nat

/-- The books of a peer, given what was asked of it from outside. -/
def books (peer : Peer) (outside : Calls) : Books where
  address := peer.address
  outside := outside
  entries := peer.account.filterMap Note.entry?
  errands := peer.line.filterMap Turn.errand?
  farewells := peer.farewells
  held := peer.heldGoodbyes.map Farewell.number
  exchanges := peer.exchanges.map fun exchange => (exchange.ticket, exchange.caller.number?)
  accepted := peer.table.acceptedOf .goodbye
  ended := peer.farewellsEnded

namespace Books

/-- The next request over the method of goodbyes is accepted under this ticket. -/
def nextTicket (books : Books) : Rpc.Ticket := ⟨.goodbye, books.accepted⟩

/-- A way in which the books change. -/
inductive Step (before : Books) : Books → Prop where
  | callsNow :
      Step before
        { before with
          outside.now := before.outside.now + 1
          entries := before.entries ++ [.now]
          errands := before.errands ++ [.close] }
  | callsCleanly :
      Step before
        { before with
          outside.cleanly := before.outside.cleanly + 1
          entries := before.entries ++ [.cleanly]
          errands := before.errands ++ [.begins before.farewells]
          farewells := before.farewells + 1 }
  | reactsNow :
      Step before
        { before with
          entries := before.entries ++ [.now, .byObserver]
          errands := before.errands ++ [.close] }
  | reactsCleanly :
      Step before
        { before with
          entries := before.entries ++ [.cleanly, .cleanlyByObserver]
          errands := before.errands ++ [.begins before.farewells]
          farewells := before.farewells + 1 }
  | closes (rest : List Errand) (errands : before.errands = .close :: rest) :
      Step before { before with entries := before.entries ++ [.close], errands := rest }
  | asks : Step before { before with entries := before.entries ++ [.goodbye] }
  /-- A clean disconnect ends, in the turn in which it begins or in one that follows its goodbye. -/
  | ends (number : Nat) (first : Errand) (rest : List Errand)
      (errands : before.errands = first :: rest)
      (either : first = .begins number ∨ first = .ends number) :
      Step before
        { before with
          entries := before.entries ++ [.now]
          errands := rest ++ [.close]
          ended := before.ended ++ [number] }
  /-- A clean disconnect asks its handler, which waits to be told. -/
  | holds (number : Nat) (rest : List Errand) (errands : before.errands = .begins number :: rest) :
      Step before
        { before with
          entries := before.entries ++ [.goodbye]
          errands := rest
          held := before.held ++ [number] }
  /-- A clean disconnect asks its handler, which sends a request. -/
  | sends (number : Nat) (rest : List Errand) (errands : before.errands = .begins number :: rest) :
      Step before
        { before with
          entries := before.entries ++ [.goodbye]
          errands := rest
          exchanges := before.exchanges ++ [(before.nextTicket, some number)]
          accepted := before.accepted + 1 }
  | sendsOutside :
      Step before
        { before with
          exchanges := before.exchanges ++ [(before.nextTicket, none)]
          accepted := before.accepted + 1 }
  | accepts : Step before { before with accepted := before.accepted + 1 }
  | tells (number : Nat) (rest : List Nat) (held : before.held = number :: rest) :
      Step before { before with held := rest, errands := before.errands ++ [.ends number] }
  | wakes (exchange : Rpc.Ticket × Option Nat)
      (found : before.exchanges.find? (·.1 == exchange.1) = some exchange) :
      Step before
        { before with
          exchanges := before.exchanges.filter (·.1 != exchange.1)
          errands := before.errands ++ (exchange.2.map Errand.ends).toList }

/-- Any number of steps. -/
abbrev Steps : Books → Books → Prop := Relation.ReflTransGen Step

/-! ## The balance -/

def closes (books : Books) : Nat := books.entries.count .close

/-- The clean disconnects that have not begun. -/
def waiting (books : Books) : List Nat := beginnings books.errands

/-- The clean disconnects that said goodbye by a handler and have not ended. -/
def underWay (books : Books) : List Nat :=
  endings books.errands ++ books.held ++ books.exchanges.filterMap Prod.snd

/-- What was asked for, what was reported and what was done. -/
structure Counted (books : Books) : Prop where
  closes : books.closes + books.errands.count .close = books.entries.count .now
  now : books.entries.count .now =
    books.outside.now + books.entries.count .byObserver + books.ended.length
  cleanly : books.entries.count .cleanly =
    books.outside.cleanly + books.entries.count .cleanlyByObserver
  farewells : books.farewells = books.entries.count .cleanly

/-- Every clean disconnect is in one place, and those under way have asked a handler. -/
structure Placed (books : Books) : Prop where
  places : (books.waiting ++ books.underWay ++ books.ended).Perm (List.range books.farewells)
  asked : books.underWay.length ≤ books.entries.count .goodbye

/-- Every goodbye request under way has a ticket of its own, which was issued to it. -/
structure Ticketed (books : Books) : Prop where
  distinct : (books.exchanges.map Prod.fst).Nodup
  issued : ∀ exchange ∈ books.exchanges,
    exchange.1.method = .goodbye ∧ exchange.1.index < books.accepted

section Balance

variable {before after : Books}

theorem Step.counted (step : Step before after) (counted : before.Counted) : after.Counted := by
  obtain ⟨closes, now, cleanly, farewells⟩ := counted
  unfold Books.closes at closes
  cases step with
  | closes rest errands =>
      rw [errands] at closes
      constructor <;> simp [Books.closes] at * <;> omega
  | ends number first rest errands either =>
      rw [errands] at closes
      rcases either with rfl | rfl <;> constructor <;> simp [Books.closes] at * <;> omega
  | holds number rest errands | sends number rest errands =>
      rw [errands] at closes
      constructor <;> simp [Books.closes] at * <;> omega
  | wakes exchange found =>
      obtain ⟨ticket, number⟩ := exchange
      cases number <;> constructor <;> simp [Books.closes] at * <;> omega
  | _ => constructor <;> simp [Books.closes] at * <;> omega

theorem Step.ticketed (step : Step before after) (ticketed : before.Ticketed) :
    after.Ticketed := by
  obtain ⟨distinct, issued⟩ := ticketed
  have sent (number : Option Nat) :
      ((before.exchanges ++ [(before.nextTicket, number)]).map Prod.fst).Nodup ∧
        ∀ exchange ∈ before.exchanges ++ [(before.nextTicket, number)],
          exchange.1.method = .goodbye ∧ exchange.1.index < before.accepted + 1 := by
    constructor
    · rw [List.map_append]
      refine List.nodup_append.mpr ⟨distinct, List.pairwise_singleton _ _, ?_⟩
      intro ticket member next added same
      obtain ⟨exchange, waits, rfl⟩ := List.mem_map.mp member
      rw [List.map_singleton, List.mem_singleton] at added
      have earlier := (issued exchange waits).2
      rw [same, added] at earlier
      exact Nat.lt_irrefl _ earlier
    · intro exchange member
      rcases List.mem_append.mp member with earlier | added
      · obtain ⟨method, below⟩ := issued exchange earlier
        exact ⟨method, Nat.lt_succ_of_lt below⟩
      · rw [List.mem_singleton.mp added]
        exact ⟨rfl, Nat.lt_succ_self _⟩
  cases step with
  | sends number rest errands => exact ⟨(sent (some number)).1, (sent (some number)).2⟩
  | sendsOutside => exact ⟨(sent none).1, (sent none).2⟩
  | accepts =>
      refine ⟨distinct, fun exchange member => ?_⟩
      obtain ⟨method, below⟩ := issued exchange member
      exact ⟨method, Nat.lt_succ_of_lt below⟩
  | wakes exchange found =>
      constructor
      · exact distinct.sublist (List.filter_sublist.map Prod.fst)
      · intro other member
        exact issued other (List.mem_filter.mp member).1
  | _ => exact ⟨distinct, issued⟩

theorem count_range_succ (number count : Nat) :
    (List.range (count + 1)).count number =
      (List.range count).count number + [count].count number := by
  rw [List.range_succ, List.count_append]

/-- A goodbye request that is woken is the only one to go. -/
theorem Ticketed.perm_of_found (ticketed : before.Ticketed) {exchange : Rpc.Ticket × Option Nat}
    (found : before.exchanges.find? (·.1 == exchange.1) = some exchange) :
    (before.exchanges.filterMap Prod.snd).Perm
      (exchange.2.toList ++ (before.exchanges.filter (·.1 != exchange.1)).filterMap Prod.snd) := by
  have goes := (perm_cons_filter ticketed.distinct found).filterMap Prod.snd
  obtain ⟨ticket, number⟩ := exchange
  cases number <;> exact goes

/-- In how many places a clean disconnect is. -/
def placesOf (books : Books) (number : Nat) : Nat :=
  (books.waiting ++ books.underWay ++ books.ended).count number

/-- A clean disconnect that is asked for takes one place, and no other leaves its place for good. -/
theorem Step.placesOf_eq (step : Step before after) (ticketed : before.Ticketed) (number : Nat) :
    after.placesOf number + (List.range before.farewells).count number =
      before.placesOf number + (List.range after.farewells).count number := by
  simp only [placesOf, waiting, underWay, List.count_append]
  cases step with
  | callsCleanly | reactsCleanly =>
      simp only [count_range_succ, beginnings_append, endings_append, List.count_append,
        beginnings, endings, List.count_nil]
      omega
  | closes rest errands => simp [errands, beginnings, endings]
  | holds other rest errands | sends other rest errands =>
      simp [errands, beginnings, endings, List.count_cons, -List.count_range]
      omega
  | ends other first rest errands either =>
      rcases either with rfl | rfl <;>
        simp [errands, beginnings, endings, List.count_cons, -List.count_range] <;> omega
  | tells other rest held =>
      simp [held, beginnings, endings, List.count_cons, -List.count_range]
      omega
  | wakes exchange found =>
      have goes := (ticketed.perm_of_found found).count_eq number
      obtain ⟨ticket, caller⟩ := exchange
      rw [List.count_append] at goes
      cases caller <;>
        simp [beginnings, endings, List.count_cons, -List.count_range] at goes ⊢ <;> omega
  | _ => simp [beginnings, endings]

/-- Whatever comes under way has asked a handler. -/
theorem Step.underWay_le (step : Step before after) (ticketed : before.Ticketed) :
    after.underWay.length + before.entries.count .goodbye ≤
      before.underWay.length + after.entries.count .goodbye := by
  simp only [underWay, List.length_append]
  cases step with
  | closes rest errands => simp [errands, endings]
  | holds other rest errands | sends other rest errands =>
      simp [errands, endings]
      omega
  | ends other first rest errands either =>
      rcases either with rfl | rfl <;> simp [errands, endings]
  | tells other rest held =>
      simp [held, endings]
      omega
  | wakes exchange found =>
      have fewer := (ticketed.perm_of_found found).length_eq
      obtain ⟨ticket, caller⟩ := exchange
      rw [List.length_append] at fewer
      cases caller <;> simp [endings] at fewer ⊢ <;> omega
  | _ => simp [endings]

theorem Step.placed (step : Step before after) (placed : before.Placed)
    (ticketed : before.Ticketed) : after.Placed where
  places := by
    rw [List.perm_iff_count]
    intro number
    have place : before.placesOf number = _ := placed.places.count_eq number
    have moved := step.placesOf_eq ticketed number
    unfold placesOf at moved place
    omega
  asked := by
    have came := step.underWay_le ticketed
    have asked := placed.asked
    omega

end Balance

end Books

end PeerLink.Peer
