import Mathlib.Data.List.Forall2
import Mathlib.Data.List.TakeWhile
import PeerLink.Client
import PeerLink.Proofs.Keyed

/-!
Contract: which texts stand for which client.

A text is read in three ways: as an agent string, of which only the part before the first slash
counts; as a name in any ASCII case; and as a stored name, letter by letter. The rules are given here
by what the texts look like: where a text is cut, and when two of its letters differ in case only.

Owns: the head of an agent string, texts that differ in ASCII case only, and what each reader takes.

Does not own: how an agent string is obtained, and what is done with the client.
-/

namespace PeerLink

/-! ## ASCII case -/

/-- The one is an ASCII capital and the other its small letter. -/
def IsCapitalOf (capital small : Char) : Prop :=
  'A'.toNat ≤ capital.toNat ∧ capital.toNat ≤ 'Z'.toNat ∧
    small.toNat = capital.toNat + ('a'.toNat - 'A'.toNat)

instance (capital small : Char) : Decidable (IsCapitalOf capital small) :=
  inferInstanceAs (Decidable (_ ∧ _ ∧ _))

/-- Equal characters, or the two cases of an ASCII letter. -/
def SameLetter (left right : Char) : Prop :=
  left = right ∨ IsCapitalOf left right ∨ IsCapitalOf right left

instance (left right : Char) : Decidable (SameLetter left right) :=
  inferInstanceAs (Decidable (_ ∨ _ ∨ _))

/-- Texts that differ in the case of ASCII letters at most. -/
def SameButCase (left right : String) : Prop :=
  List.Forall₂ SameLetter left.toList right.toList

instance (left right : String) : Decidable (SameButCase left right) :=
  inferInstanceAs (Decidable (List.Forall₂ _ _ _))

theorem sameButCase_refl (text : String) : SameButCase text text :=
  List.forall₂_same.mpr fun _ _ => .inl rfl

theorem toNat_toLower (char : Char) :
    char.toLower.toNat =
      if 65 ≤ char.toNat ∧ char.toNat ≤ 90 then char.toNat + 32 else char.toNat := by
  have isCapital : char.val ≥ 'A'.val ∧ char.val ≤ 'Z'.val ↔
      65 ≤ char.toNat ∧ char.toNat ≤ 90 := by
    rw [ge_iff_le, UInt32.le_iff_toNat_le, UInt32.le_iff_toNat_le]
    rfl
  unfold Char.toLower
  by_cases capital : 65 ≤ char.toNat ∧ char.toNat ≤ 90
  · rw [dif_pos (isCapital.mpr capital), if_pos capital]
    show (char.val + 32).toNat = char.val.toNat + 32
    have below : char.val.toNat ≤ 90 := capital.2
    rw [UInt32.toNat_add]
    exact Nat.mod_eq_of_lt (by simp; omega)
  · rw [dif_neg (isCapital.not.mpr capital), if_neg capital]

/-- Folding identifies the two cases of an ASCII letter and nothing else. -/
theorem toLower_eq_toLower_iff (left right : Char) :
    left.toLower = right.toLower ↔ SameLetter left right := by
  rw [← Char.toNat_inj, toNat_toLower, toNat_toLower, SameLetter, ← Char.toNat_inj]
  unfold IsCapitalOf
  have capitalA : 'A'.toNat = 65 := rfl
  have capitalZ : 'Z'.toNat = 90 := rfl
  have smallA : 'a'.toNat = 97 := rfl
  split <;> split <;> omega

namespace ClientType

theorem foldCase_eq_foldCase_iff (left right : String) :
    foldCase left.toList = foldCase right.toList ↔ SameButCase left right := by
  unfold foldCase SameButCase
  rw [← List.forall₂_eq_eq_eq, List.forall₂_map_left_iff, List.forall₂_map_right_iff]
  simp only [toLower_eq_toLower_iff]

/-! ## Names -/

theorem mem_all (client : ClientType) : client ∈ all := by
  cases client <;> decide

theorem parse?_eq_some_iff (text : String) (client : ClientType) :
    parse? text = some client ↔ SameButCase text client.name := by
  have distinct : (all.map fun client => foldCase client.name.toList).Nodup := by decide
  unfold parse?
  rw [find?_eq_some_iff_of_distinct distinct, eq_comm, foldCase_eq_foldCase_iff]
  exact and_iff_right (mem_all client)

theorem ofName?_eq_some_iff (text : String) (client : ClientType) :
    ofName? text = some client ↔ text = client.name := by
  have distinct : (all.map name).Nodup := by decide
  unfold ofName? Naming.find?
  rw [find?_eq_some_iff_of_distinct distinct, eq_comm]
  exact and_iff_right (mem_all client)

theorem slash_not_mem_name (client : ClientType) : '/' ∉ client.name.toList := by
  cases client <;> decide

/-! ## Agent strings -/

/-- This is the part of an agent string before its first slash, or all of it if there is none. -/
def Heads (part agent : String) : Prop :=
  '/' ∉ part.toList ∧ (agent = part ∨ ∃ rest, agent = part ++ "/" ++ rest)

theorem heads_agentName (agent : String) : Heads (agentName agent) agent := by
  have parts := List.takeWhile_append_dropWhile (p := (· != '/')) (l := agent.toList)
  have isHead : (agentName agent).toList = agent.toList.takeWhile (· != '/') :=
    String.toList_ofList
  rw [← isHead] at parts
  constructor
  · intro member
    rw [isHead] at member
    have differs := List.mem_takeWhile_imp member
    simp at differs
  · cases remains : agent.toList.dropWhile (· != '/') with
    | nil =>
        rw [remains, List.append_nil] at parts
        exact .inl (String.toList_inj.mp parts.symm)
    | cons first rest =>
        have stops := List.head?_dropWhile_not (· != '/') agent.toList
        rw [remains] at stops
        obtain rfl : first = '/' := by simpa using stops
        refine .inr ⟨String.ofList rest, String.toList_inj.mp ?_⟩
        rw [← parts, remains]
        simp

theorem agentName_of_heads {part agent : String} (heads : Heads part agent) :
    agentName agent = part := by
  obtain ⟨noSlash, cut⟩ := heads
  have allTaken : ∀ char ∈ part.toList, (char != '/') = true := by
    intro char member
    rw [bne_iff_ne]
    rintro rfl
    exact noSlash member
  unfold agentName
  rcases cut with rfl | ⟨rest, rfl⟩
  · rw [List.takeWhile_eq_self_iff.mpr allTaken, String.ofList_toList]
  · rw [String.toList_append, String.toList_append, List.append_assoc,
      List.takeWhile_append_of_pos allTaken]
    simp

/-- The head of a name in any case is the whole name: no letter shares its fold with the slash. -/
theorem agentName_of_parse? {text : String} {client : ClientType}
    (reads : parse? text = some client) : agentName text = text := by
  refine agentName_of_heads ⟨fun member => ?_, .inl rfl⟩
  have sameFold := (foldCase_eq_foldCase_iff _ _).mpr ((parse?_eq_some_iff text client).mp reads)
  have folded : '/'.toLower ∈ foldCase text.toList := List.mem_map_of_mem member
  rw [sameFold] at folded
  obtain ⟨char, inName, folds⟩ := List.mem_map.mp folded
  rcases (toLower_eq_toLower_iff char '/').mp folds with rfl | ⟨low, -, high⟩ | ⟨low, -⟩
  · exact slash_not_mem_name client inName
  · have slash : '/'.toNat = 47 := rfl
    have capitalA : 'A'.toNat = 65 := rfl
    omega
  · exact absurd low (by decide)

/-! ## Classification -/

theorem ofAgent_of_head {part agent : String} (heads : Heads part agent) :
    ofAgent agent = (parse? part).getD unknown := by
  rw [ofAgent, agentName_of_heads heads]

theorem ofAgent_eq_iff {part agent : String} (heads : Heads part agent) {client : ClientType}
    (known : client.isKnown = true) :
    ofAgent agent = client ↔ SameButCase part client.name := by
  have notUnknown : client ≠ unknown := by simpa [isKnown] using known
  rw [ofAgent_of_head heads, ← parse?_eq_some_iff]
  cases parse? part with
  | none => simp [notUnknown.symm]
  | some other => simp

theorem ofAgent_eq_unknown_iff {part agent : String} (heads : Heads part agent) :
    ofAgent agent = unknown ↔
      ∀ client : ClientType, client.isKnown = true → ¬ SameButCase part client.name := by
  constructor
  · intro isUnknown client known same
    have isClient := (ofAgent_eq_iff heads known).mpr same
    rw [← isClient, isUnknown] at known
    cases known
  · intro noneSame
    by_contra known
    have isKnown : (ofAgent agent).isKnown = true := by simpa [isKnown] using known
    exact noneSame _ isKnown ((ofAgent_eq_iff heads isKnown).mp rfl)

/-- Heads that differ in case only are the same to the classification. -/
theorem ofAgent_eq_ofAgent {part other agent changed : String} (heads : Heads part agent)
    (otherHeads : Heads other changed) (same : SameButCase other part) :
    ofAgent changed = ofAgent agent := by
  rw [ofAgent_of_head heads, ofAgent_of_head otherHeads]
  unfold parse?
  rw [(foldCase_eq_foldCase_iff other part).mpr same]

/-- A text has one head, which alone tells the client: it is a known client exactly if its head is the
name of this client but for ASCII case, and unknown if that holds of none. So neither what follows the
first slash nor the case before it makes a difference. A whole text is read as a name exactly if it is
the name but for ASCII case, and as a stored name exactly if it is the name. A text that is taken in a
stricter way is taken for the same client in the others. -/
theorem classified_by_head (text : String) :
    ∃ part, Heads part text ∧ (∀ other, Heads other text → other = part) ∧
      (∀ client : ClientType, client.isKnown = true →
        (ofAgent text = client ↔ SameButCase part client.name)) ∧
      (ofAgent text = unknown ↔
        ∀ client : ClientType, client.isKnown = true → ¬ SameButCase part client.name) ∧
      (∀ rest, ofAgent (part ++ "/" ++ rest) = ofAgent text) ∧
      (∀ other changed, Heads other changed → SameButCase other part →
        ofAgent changed = ofAgent text) ∧
      (∀ client, parse? text = some client ↔ SameButCase text client.name) ∧
      (∀ client, ofName? text = some client ↔ text = client.name) ∧
      (∀ client, ofName? text = some client → parse? text = some client) ∧
      ∀ client, parse? text = some client → ofAgent text = client := by
  have heads := heads_agentName text
  refine ⟨agentName text, heads, fun other otherHeads => (agentName_of_heads otherHeads).symm,
    fun client => ofAgent_eq_iff heads, ofAgent_eq_unknown_iff heads, ?_, ?_,
    parse?_eq_some_iff text, ofName?_eq_some_iff text, ?_, ?_⟩
  · intro rest
    exact ofAgent_eq_ofAgent heads ⟨heads.1, .inr ⟨rest, rfl⟩⟩ (sameButCase_refl _)
  · intro other changed otherHeads same
    exact ofAgent_eq_ofAgent heads otherHeads same
  · intro client stored
    rw [parse?_eq_some_iff, (ofName?_eq_some_iff text client).mp stored]
    exact sameButCase_refl _
  · intro client reads
    rw [ofAgent, agentName_of_parse? reads, reads]
    rfl

/-- A second slash and another case change nothing. The Kelvin sign is no `k`, and a blank is not
trimmed. -/
theorem classified_by_head_crowdedText :
    ofAgent "teKU/lighthouse/v4" = teku ∧ ofAgent "TEku" = ofAgent "teKU/lighthouse/v4" ∧
      ofAgent "teKU/" = ofAgent "teKU/lighthouse/v4" ∧
      ofAgent "te\u212au/v4" = unknown ∧ ofAgent " teku" = unknown := by
  obtain ⟨part, -, isPart, known, -, -, kept, -⟩ := classified_by_head "teKU/lighthouse/v4"
  obtain rfl := isPart "teKU" ⟨by decide, .inr ⟨"lighthouse/v4", by decide⟩⟩
  refine ⟨(known teku rfl).mpr (by decide), kept "TEku" "TEku" ⟨by decide, .inl rfl⟩ (by decide),
    kept "teKU" "teKU/" ⟨by decide, .inr ⟨"", by decide⟩⟩ (by decide), by decide, by decide⟩

end ClientType

end PeerLink
