import PeerLink.Proofs.Toml.Line

/-!
Contract: documents of integers under bare keys.

Fields with new keys go to the end of the table that the lines add to: the document itself, or the
table of the last header. So reading what was written gives the entries that were written, in their
order.

Owns: sheets, how they are written, and that reading one gives its entries.

Does not own: other ways to write the same entries.
-/

namespace PeerLink.Toml

/-! ## Tables -/

namespace Entries

variable {entries : Entries} {key : String}

theorem find?_eq_none (fresh : key ∉ entries.map Prod.fst) : entries.find? key = none := by
  rw [find?, List.lookup_eq_none_iff]
  intro entry member
  rw [bne_iff_ne]
  rintro rfl
  exact fresh (List.mem_map_of_mem member)

theorem put_of_fresh (fresh : key ∉ entries.map Prod.fst) (value : Value) :
    entries.put key value = entries ++ [(key, value)] := by
  induction entries with
  | nil => rfl
  | cons entry rest inductionHypothesis =>
      rw [List.map_cons, List.mem_cons, not_or] at fresh
      rw [put, if_neg fun same => fresh.1 same.symm, inductionHypothesis fresh.2]
      rfl

theorem find?_concat (fresh : key ∉ entries.map Prod.fst) (value : Value) :
    find? (entries ++ [(key, value)]) key = some value := by
  have before := find?_eq_none fresh
  rw [find?] at before ⊢
  rw [List.lookup_append, before, List.lookup_cons_self]
  rfl

theorem put_concat (fresh : key ∉ entries.map Prod.fst) (old value : Value) :
    put key value (entries ++ [(key, old)]) = entries ++ [(key, value)] := by
  induction entries with
  | nil => simp [put]
  | cons entry rest inductionHypothesis =>
      rw [List.map_cons, List.mem_cons, not_or] at fresh
      rw [List.cons_append, put, if_neg fun same => fresh.1 same.symm, inductionHypothesis fresh.2]
      rfl

theorem assignIn_document (fresh : key ∉ entries.map Prod.fst) (value : Value) :
    entries.assignIn [] [] key value = some (entries ++ [(key, value)]) := by
  show insertNew key value entries = _
  rw [insertNew, find?_eq_none fresh, put_of_fresh fresh]

theorem assignIn_table {table : String} (isTable : table ∉ entries.map Prod.fst) {inner : Entries}
    (fresh : key ∉ inner.map Prod.fst) (value : Value) :
    assignIn [table] [] key value (entries ++ [(table, .table .header inner)]) =
      some (entries ++ [(table, .table .header (inner ++ [(key, value)]))]) := by
  have added : insertNew key value inner = some (inner ++ [(key, value)]) := by
    rw [insertNew, find?_eq_none fresh, put_of_fresh fresh]
  rw [assignIn, changeAt, find?_concat isTable]
  show (do pure (put table (.table .header (← insertNew key value inner)) _)) = _
  rw [added]
  show some (put table _ _) = _
  rw [put_concat isTable]

theorem openTable_of_fresh (fresh : key ∉ entries.map Prod.fst) :
    entries.openTable [] key = some (entries ++ [(key, .table .header [])]) := by
  rw [openTable, changeAt, find?_eq_none fresh, put_of_fresh fresh]

end Entries

/-- The entries of the table that lines go to, in a draft that holds them somewhere. -/
structure Current (draft : Entries → Draft) : Prop where
  assign : ∀ (entries : Entries) (field : Field), field.key ∉ entries.map Prod.fst →
    field.assign? (draft entries) = some (draft (entries ++ [field.entry]))

theorem current_document : Current fun entries => ⟨entries, []⟩ := by
  constructor
  intro entries field fresh
  rw [Field.assign?, Entries.assignIn_document fresh]
  rfl

theorem current_table {document : Entries} {table : String}
    (isNew : table ∉ document.map Prod.fst) :
    Current fun entries => ⟨document ++ [(table, .table .header entries)], [table]⟩ := by
  constructor
  intro entries field fresh
  rw [Field.assign?, Entries.assignIn_table isNew fresh]
  rfl

/-- Fields with new keys are added to the table that lines go to, in their order. -/
theorem Current.assignAll? {draft : Entries → Draft} (current : Current draft) {fields : List Field}
    (entries : Entries) (distinct : (entries.map Prod.fst ++ fields.map Field.key).Nodup) :
    assignAll? fields (draft entries) = some (draft (entries ++ fields.map Field.entry)) := by
  induction fields generalizing entries with
  | nil =>
      rw [List.map_nil, List.append_nil]
      rfl
  | cons field others inductionHypothesis =>
      have fresh : field.key ∉ entries.map Prod.fst := by
        intro member
        exact (List.nodup_append.mp distinct).2.2 _ member _ List.mem_cons_self rfl
      have laterDistinct :
          ((entries ++ [field.entry]).map Prod.fst ++ others.map Field.key).Nodup := by
        rw [List.map_append, List.append_assoc]
        exact distinct
      have later := inductionHypothesis _ laterDistinct
      rw [List.append_assoc] at later
      rw [PeerLink.Toml.assignAll?, current.assign entries field fresh]
      exact later

/-! ## Whole documents -/

/-- A document of integers: fields, and one table with fields after them or none. -/
structure Sheet where
  fields : List Field
  table : Option (String × List Field) := none
deriving DecidableEq, Repr

namespace Sheet

def text (sheet : Sheet) : String :=
  fieldsText sheet.fields ++
    match sheet.table with
    | none => ""
    | some (key, fields) => headerText key ++ fieldsText fields

/-- What a reader is to make of a sheet. -/
def entries (sheet : Sheet) : Entries :=
  sheet.fields.map Field.entry ++
    match sheet.table with
    | none => []
    | some (key, fields) => [(key, .table .header (fields.map Field.entry))]

/-- A key stands for a field, or else for the table. -/
theorem find?_entries (sheet : Sheet) (key : String) :
    sheet.entries.find? key =
      (Entries.find? (sheet.fields.map Field.entry) key).or
        ((sheet.table.filter fun table => key == table.1).map fun table =>
          .table .header (table.2.map Field.entry)) := by
  unfold entries Entries.find?
  rw [List.lookup_append]
  cases sheet.table with
  | none => rfl
  | some table =>
      rw [Option.filter_some]
      cases same : key == table.1 <;> simp [List.lookup_cons, same]

/-- All keys are bare, and no table has one twice. -/
structure Valid (sheet : Sheet) : Prop where
  bare : ∀ field ∈ sheet.fields, IsBare field.key
  distinct : (sheet.fields.map Field.key).Nodup
  table : ∀ key fields, sheet.table = some (key, fields) →
    IsBare key ∧ key ∉ sheet.fields.map Field.key ∧
      (∀ field ∈ fields, IsBare field.key) ∧ (fields.map Field.key).Nodup

/-- The lines of a table are read into it, up to the end of the document. -/
theorem lines_table {document : Entries} {key : String} {fields : List Field} (bare : IsBare key)
    (isNew : key ∉ document.map Prod.fst) (bareFields : ∀ field ∈ fields, IsBare field.key)
    (distinct : (fields.map Field.key).Nodup) (rounds : Nat)
    (enough : ((headerText key).toList ++ (fieldsText fields).toList).length ≤ rounds) :
    lines rounds ⟨document, []⟩ ((headerText key).toList ++ (fieldsText fields).toList) =
      some ⟨document ++ [(key, .table .header (fields.map Field.entry))], [key]⟩ := by
  rw [toList_headerText] at enough
  obtain ⟨rounds, rfl⟩ : ∃ fewer, rounds = fewer + 1 := by
    refine ⟨rounds - 1, ?_⟩
    rw [List.length_cons] at enough
    omega
  have fewer : ((fieldsText fields).toList ++ []).length ≤ rounds := by
    simp only [List.length_cons, List.length_append, List.length_nil] at enough ⊢
    omega
  obtain ⟨left, -, read⟩ := lines_fieldsText bareFields
    ⟨document ++ [(key, .table .header [])], [key]⟩ [] rounds fewer
  have assigned := (current_table isNew).assignAll? [] distinct
  rw [List.append_nil, assigned, Option.bind_some, lines_nil] at read
  rw [lines_headerText bare, Entries.openTable_of_fresh isNew, Option.bind_some, read]
  rfl

/-- A document that does not begin with a byte order mark is read from its first character on. -/
theorem read?_of_unmarked {document : String}
    (unmarked : ∀ rest, document.toList ≠ byteOrderMark :: rest) :
    read? document = (lines document.toList.length {} document.toList).map Draft.document := by
  unfold read?
  cases chars : document.toList with
  | nil => rfl
  | cons first rest =>
      have isNoMark : first ≠ byteOrderMark := by
        rintro rfl
        exact unmarked rest chars
      simp only [if_neg isNoMark]

theorem unmarked_text {sheet : Sheet} (valid : sheet.Valid) (rest : Rest) :
    sheet.text.toList ≠ byteOrderMark :: rest := by
  intro marked
  cases begins : sheet.fields with
  | nil =>
      cases isTable : sheet.table with
      | none => simp [text, begins, isTable, fieldsText] at marked
      | some table =>
          have chars : sheet.text.toList =
              (headerText table.1).toList ++ (fieldsText table.2).toList := by
            simp [text, begins, isTable, fieldsText]
          rw [chars, toList_headerText] at marked
          exact absurd (List.cons.inj marked).1 (by decide)
  | cons field others =>
      have bare : IsBare field.key := valid.bare field (by simp [begins])
      obtain ⟨later, chars⟩ : ∃ later, sheet.text.toList = field.text.toList ++ later := by
        rw [text, begins, String.toList_append, toList_fieldsText_cons]
        exact ⟨_, rfl⟩
      rw [chars, Field.toList_text] at marked
      exact append_ne_cons bare.1 bare.2 (by decide) _ rest marked

/-- Reading a written sheet gives its entries. -/
theorem read?_text {sheet : Sheet} (valid : sheet.Valid) : read? sheet.text = some sheet.entries := by
  have keys : (sheet.fields.map Field.entry).map Prod.fst = sheet.fields.map Field.key := by
    rw [List.map_map]
    rfl
  have assigned := current_document.assignAll? [] valid.distinct
  rw [read?_of_unmarked (unmarked_text valid)]
  cases isTable : sheet.table with
  | none =>
      have chars : sheet.text.toList = (fieldsText sheet.fields).toList ++ [] := by
        simp [text, isTable]
      obtain ⟨left, -, read⟩ := lines_fieldsText valid.bare {} [] sheet.text.toList.length
        (Nat.le_of_eq (congrArg List.length chars.symm))
      rw [← chars, assigned, Option.bind_some, lines_nil] at read
      rw [read]
      simp [entries, isTable]
  | some table =>
      obtain ⟨key, fields⟩ := table
      obtain ⟨bare, isNew, bareFields, distinct⟩ := valid.table key fields isTable
      rw [← keys] at isNew
      have chars : sheet.text.toList = (fieldsText sheet.fields).toList ++
          ((headerText key).toList ++ (fieldsText fields).toList) := by
        simp [text, isTable]
      obtain ⟨left, enough, read⟩ := lines_fieldsText valid.bare {} _ sheet.text.toList.length
        (Nat.le_of_eq (congrArg List.length chars.symm))
      rw [← chars, assigned, Option.bind_some] at read
      rw [read, List.nil_append, lines_table bare isNew bareFields distinct left enough]
      simp [entries, isTable]

end Sheet

end PeerLink.Toml
