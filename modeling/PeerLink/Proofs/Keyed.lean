/-!
Contract: lists in which every item has a key of its own.

Owns: that the item found under a key is the one that has it and the only one that goes when the key is
removed, and that a key which an item has is found.

Does not own: what items and keys are.
-/

namespace PeerLink

variable {α κ : Type} [BEq κ] [LawfulBEq κ] {key : α → κ} {items : List α} {wanted : κ} {item : α}

/-- An item is found under its key and is all that goes with it, wherever it stands. -/
theorem find_and_filter_of_split {earlier later : List α}
    (distinct : ((earlier ++ item :: later).map key).Nodup) :
    (earlier ++ item :: later).find? (key · == key item) = some item ∧
      (earlier ++ item :: later).filter (key · != key item) = earlier ++ later := by
  rw [List.map_append, List.map_cons, List.nodup_append, List.nodup_cons] at distinct
  have earlierDiffer : ∀ other ∈ earlier, key other ≠ key item := by
    intro other member
    exact distinct.2.2 _ (List.mem_map_of_mem member) _ List.mem_cons_self
  have laterDiffer : ∀ other ∈ later, key other ≠ key item := by
    intro other member equal
    exact distinct.2.1.1 (equal ▸ List.mem_map_of_mem member)
  constructor
  · apply List.find?_eq_some_iff_append.mpr
    exact ⟨beq_self_eq_true _, earlier, later, rfl, by simpa using earlierDiffer⟩
  · rw [List.filter_append, List.filter_cons_of_neg (by simp),
      List.filter_eq_self.mpr (by simpa using earlierDiffer),
      List.filter_eq_self.mpr (by simpa using laterDiffer)]

/-- What is found under a key is the item that has the key. -/
theorem find?_eq_some_iff_of_distinct (distinct : (items.map key).Nodup) :
    items.find? (key · == wanted) = some item ↔ item ∈ items ∧ key item = wanted := by
  constructor
  · intro found
    have matched := List.find?_some found
    exact ⟨List.mem_of_find?_eq_some found, eq_of_beq matched⟩
  · rintro ⟨member, rfl⟩
    obtain ⟨earlier, later, rfl⟩ := List.append_of_mem member
    exact (find_and_filter_of_split distinct).1

/-- Removing a key takes out the item found under it, and no other. -/
theorem exists_split_of_find? (distinct : (items.map key).Nodup)
    (found : items.find? (fun other => key other == wanted) = some item) :
    key item = wanted ∧ ∃ earlier later, items = earlier ++ item :: later ∧
      items.filter (fun other => key other != wanted) = earlier ++ later := by
  obtain ⟨isWanted, earlier, later, rfl, -⟩ := List.find?_eq_some_iff_append.mp found
  obtain rfl : key item = wanted := eq_of_beq isWanted
  exact ⟨rfl, earlier, later, rfl, (find_and_filter_of_split distinct).2⟩

theorem perm_cons_filter (distinct : (items.map key).Nodup)
    (found : items.find? (key · == wanted) = some item) :
    items.Perm (item :: items.filter (key · != wanted)) := by
  obtain ⟨-, earlier, later, split, remaining⟩ := exists_split_of_find? distinct found
  rw [remaining, split]
  exact List.perm_middle

/-- The first item of its kind is the one that is found, and the one that is erased. -/
theorem find_and_eraseP_of_split {kind : α → Bool} {earlier later : List α}
    (differ : ∀ other ∈ earlier, ¬ kind other = true) (isKind : kind item = true) :
    (earlier ++ item :: later).find? kind = some item ∧
      (earlier ++ item :: later).eraseP kind = earlier ++ later := by
  constructor
  · apply List.find?_eq_some_iff_append.mpr
    exact ⟨isKind, earlier, later, rfl, by simpa using differ⟩
  · rw [List.eraseP_append_right _ differ, List.eraseP_cons_of_pos isKind]

/-- A key that an item has leads to some item. -/
theorem lookup_ne_none_of_mem {entries : List (κ × α)} (member : wanted ∈ entries.map Prod.fst) :
    entries.lookup wanted ≠ none := by
  intro missing
  obtain ⟨entry, isThere, rfl⟩ := List.mem_map.mp member
  have differs := List.lookup_eq_none_iff.mp missing entry isThere
  simp at differs

end PeerLink
