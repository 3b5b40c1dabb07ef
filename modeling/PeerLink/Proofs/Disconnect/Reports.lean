import PeerLink.Disconnect.State

/-!
Contract: a link that hears of its end any number of times.

It hears of it by a request to disconnect or by the close of the connection. The first report fixes
the record. Whatever the link hears afterwards leaves it as it is: a late request learns that it wrote
nothing, and a close is answered with the record there is.

Owns: what a link can hear, what it answers, and what any series of reports leaves behind.

Does not own: who reports what, and when.
-/

namespace PeerLink.DisconnectState

inductive Report where
  /-- Somebody asks to disconnect and says what to record. -/
  | request (record : DisconnectRecord)
  /-- The connection closed. -/
  | closed
deriving DecidableEq, Repr

inductive Answer where
  /-- Whether the request wrote the record. -/
  | wrote (written : Bool)
  /-- The record that stays. -/
  | final (record : DisconnectRecord)
deriving DecidableEq, Repr

def hear (state : DisconnectState) : Report → Answer × DisconnectState
  | .request record =>
      let (written, told) := state.recordDisconnect record
      (.wrote written, told)
  | .closed =>
      let (record, told) := state.markClosed
      (.final record, told)

/-- Hears reports one after the other. The answers stand in the same order. -/
def hearAll (state : DisconnectState) : List Report → List Answer × DisconnectState
  | [] => ([], state)
  | report :: rest =>
      let (answer, told) := state.hear report
      let (answers, last) := told.hearAll rest
      (answer :: answers, last)

/-- What a report writes if nothing is recorded yet. -/
def Report.record : Report → DisconnectRecord
  | request record => record
  | closed => .remoteClose

def Report.isRequest : Report → Bool
  | request _ => true
  | closed => false

/-! ## One report -/

/-- The link after a report wrote this record. -/
def ended (record : DisconnectRecord) : DisconnectState where
  connected := false
  record := some record

/-- The answer to a report, by whether it is the first and by the record that is kept after it. -/
def Report.answer (report : Report) (isFirst : Bool) (kept : DisconnectRecord) : Answer :=
  match report with
  | request _ => .wrote isFirst
  | closed => .final kept

theorem hear_of_fresh (report : Report) :
    ({} : DisconnectState).hear report = (report.answer true report.record, ended report.record) := by
  cases report with
  | request record => rfl
  | closed => rfl

theorem hear_of_ended (record : DisconnectRecord) (report : Report) :
    (ended record).hear report = (report.answer false record, ended record) := by
  cases report with
  | request other => rfl
  | closed => rfl

/-! ## Any number of reports -/

/-- Nothing that a link hears after its end changes it. -/
theorem hearAll_of_ended (record : DisconnectRecord) (reports : List Report) :
    (ended record).hearAll reports = (reports.map (·.answer false record), ended record) := by
  induction reports with
  | nil => rfl
  | cons report rest inductionHypothesis =>
      simp only [hearAll, hear_of_ended, inductionHypothesis, List.map_cons]

/-- The first report ends the link. -/
theorem hearAll_of_fresh (first : Report) (rest : List Report) :
    ({} : DisconnectState).hearAll (first :: rest) =
      (first.answer true first.record :: rest.map (·.answer false first.record),
        ended first.record) := by
  simp only [hearAll, hear_of_fresh, hearAll_of_ended]

theorem count_late_answers (record : DisconnectRecord) (reports : List Report) :
    (reports.map (·.answer false record)).count (.wrote true) = 0 := by
  apply List.count_eq_zero.mpr
  intro member
  obtain ⟨report, -, wrote⟩ := List.mem_map.mp member
  cases report with
  | request other => cases wrote
  | closed => cases wrote

/-- At most one request writes the record. -/
theorem count_wrote (first : Report) (rest : List Report) :
    (({} : DisconnectState).hearAll (first :: rest)).1.count (.wrote true) =
      if first.isRequest then 1 else 0 := by
  rw [hearAll_of_fresh, List.count_cons, count_late_answers]
  cases first with
  | request record => rfl
  | closed => rfl

/-- Where an answer stands among the answers to a series of reports, and what it is. -/
theorem getElem?_answers (first : Report) (rest : List Report) (place : Nat) :
    (({} : DisconnectState).hearAll (first :: rest)).1[place]? =
      (first :: rest)[place]?.map (·.answer (decide (place = 0)) first.record) := by
  rw [hearAll_of_fresh]
  cases place with
  | zero => rfl
  | succ place => exact List.getElem?_map

/-- A link is connected, and has no record, exactly as long as it heard nothing. The first report fixes
the record for good, whatever follows. Of all requests only that one writes, and only if it came
first; and the close of the connection is always answered with the record that is kept. -/
theorem first_report_decides (reports : List Report) :
    let answers := (({} : DisconnectState).hearAll reports).1
    let state := (({} : DisconnectState).hearAll reports).2
    (state.connected = true ↔ reports = []) ∧ (state.record = none ↔ reports = []) ∧
      state.record = reports.head?.map Report.record ∧
      (reports ≠ [] → ∀ later, (({} : DisconnectState).hearAll (reports ++ later)).2 = state) ∧
      answers.length = reports.length ∧
      answers.count (.wrote true) = (if reports.head?.any Report.isRequest then 1 else 0) ∧
      (∀ (place : Nat) (record : DisconnectRecord), reports[place]? = some (.request record) →
        answers[place]? = some (.wrote (decide (place = 0)))) ∧
      ∀ place : Nat, reports[place]? = some .closed → ∃ kept, answers[place]? = some (.final kept) ∧
        (({} : DisconnectState).hearAll (reports.take (place + 1))).2.record = some kept ∧
        state.record = some kept := by
  cases reports with
  | nil => simp [hearAll]
  | cons first rest =>
      intro answers state
      have ends : state = ended first.record := congrArg Prod.snd (hearAll_of_fresh first rest)
      refine ⟨by simp [ends, ended], by simp [ends, ended], by simp [ends, ended], ?_, ?_, ?_, ?_, ?_⟩
      · intro _ later
        rw [List.cons_append, hearAll_of_fresh, ends]
      · simp [answers, hearAll_of_fresh]
      · exact count_wrote first rest
      · intro place record there
        simp only [answers, getElem?_answers, there]
        rfl
      · intro place there
        refine ⟨first.record, ?_, ?_, by rw [ends]; rfl⟩
        · simp only [answers, getElem?_answers, there]
          rfl
        · rw [List.take_succ_cons, hearAll_of_fresh]
          rfl

/-- Two requests and two closes: the request that came first is the one that counts. -/
theorem first_report_decides_lateRequest :
    let reports : List Report :=
      [.request ⟨some .shutdown, true⟩, .closed, .request ⟨some .remoteFault, false⟩, .closed]
    let state := (({} : DisconnectState).hearAll reports).2
    state.record = some ⟨some .shutdown, true⟩ ∧
      (({} : DisconnectState).hearAll (reports ++ [.request ⟨none, true⟩])).2 = state ∧
      (({} : DisconnectState).hearAll reports).1[2]? = some (.wrote false) ∧
      ∃ kept, (({} : DisconnectState).hearAll reports).1[3]? = some (.final kept) ∧
        state.record = some kept := by
  obtain ⟨-, -, fixed, lasts, -, -, requests, closes⟩ := first_report_decides
    [.request ⟨some .shutdown, true⟩, .closed, .request ⟨some .remoteFault, false⟩, .closed]
  obtain ⟨kept, answered, -, stays⟩ := closes 3 rfl
  exact ⟨fixed, lasts (List.cons_ne_nil _ _) _, requests 2 _ rfl, kept, answered, stays⟩

end PeerLink.DisconnectState
