import PeerLink.Proofs.Toml.Sheet
import PeerLink.Settings.Reader

/-!
Contract: settings written down and read again.

Any of the settings may be given, with any number of 64 bits, and the lines of a table may be in any
order. What a reader finds of a setting is then the number that was given, whatever the order of the
lines. So what is read depends on the numbers alone: first on whether they are of their settings'
types, and then on whether the settings keep the rules.

Owns: the settings by name, documents that give numbers to some of them, the rules in the order of
their checks, and what is read from such a document.

Does not own: documents that hold anything else.
-/

namespace PeerLink

open Toml (Sheet Field Value Entries)

/-! ## Settings by name -/

inductive Setting where
  | maxConcurrentRequests
  | goodbyeTimeoutMs
  | disconnectThreshold
  | maxScore
  | banPeriodSecs
  | maxTrackedPeers
deriving DecidableEq, Repr

namespace Setting

def name : Setting → String
  | maxConcurrentRequests => "max_concurrent_requests"
  | goodbyeTimeoutMs => "goodbye_timeout_ms"
  | disconnectThreshold => "disconnect_threshold"
  | maxScore => "max_score"
  | banPeriodSecs => "ban_period_secs"
  | maxTrackedPeers => "max_tracked_peers"

/-- The settings that the document itself holds. -/
def general : List Setting := [maxConcurrentRequests, goodbyeTimeoutMs]

/-- The settings that the table of reputation tracking holds. -/
def ofReputation : List Setting := [disconnectThreshold, maxScore, banPeriodSecs, maxTrackedPeers]

/-- The numbers of a setting's type: of 32 bits for scores, and not negative for the rest. -/
def Takes (number : Int64) : Setting → Prop
  | disconnectThreshold | maxScore => -2147483648 ≤ number.toInt ∧ number.toInt ≤ 2147483647
  | maxConcurrentRequests | goodbyeTimeoutMs | banPeriodSecs | maxTrackedPeers => 0 ≤ number.toInt

instance (number : Int64) : (setting : Setting) → Decidable (setting.Takes number)
  | disconnectThreshold | maxScore =>
      inferInstanceAs (Decidable (-2147483648 ≤ number.toInt ∧ number.toInt ≤ 2147483647))
  | maxConcurrentRequests | goodbyeTimeoutMs | banPeriodSecs | maxTrackedPeers =>
      inferInstanceAs (Decidable (0 ≤ number.toInt))

theorem isBare_name (setting : Setting) : Toml.IsBare setting.name := by
  cases setting <;> decide

theorem name_ne_reputation (setting : Setting) : setting.name ≠ "reputation" := by
  cases setting <;> decide

theorem eq_of_name {setting other : Setting} (same : setting.name = other.name) :
    setting = other := by
  cases setting <;> cases other <;> first | rfl | exact absurd same (by decide)

end Setting

/-! ## Given settings -/

/-- Which settings are given, and the number that each of them has. -/
abbrev Given := Setting → Option Int64

namespace Given

variable (given : Given)

/-- Every given number is one of its setting's type. -/
def Fits : Prop := ∀ setting number, given setting = some number → setting.Takes number

/-- The defaults, overridden by the given numbers. -/
def settings : Settings :=
  let default : Settings := {}
  let natural (setting : Setting) (missing : Nat) : Nat :=
    (given setting).elim missing fun number => number.toInt.toNat
  let word (setting : Setting) (missing : Int32) : Int32 :=
    (given setting).elim missing fun number => Int32.ofInt number.toInt
  { maxConcurrentRequests := natural .maxConcurrentRequests default.maxConcurrentRequests
    goodbyeTimeoutMs := natural .goodbyeTimeoutMs default.goodbyeTimeoutMs
    reputation :=
      { disconnectThreshold := word .disconnectThreshold default.reputation.disconnectThreshold
        maxScore := word .maxScore default.reputation.maxScore
        banPeriodSecs := natural .banPeriodSecs default.reputation.banPeriodSecs
        maxTrackedPeers := natural .maxTrackedPeers default.reputation.maxTrackedPeers } }

/-- What a reader is to find of a setting. -/
def value (setting : Setting) : Option Value :=
  (given setting).map fun number => .integer number.toInt

/-- The lines of given settings, in some order. -/
def fields (order : List Setting) : List Field :=
  order.filterMap fun setting => (given setting).map fun number => ⟨setting.name, number⟩

end Given

/-- A way to write given settings down: the order of the lines, and whether there is a table of
reputation tracking. It may be missing if it has no line. -/
structure Layout (given : Given) where
  general : List Setting
  reputation : Option (List Setting)
  general_perm : general.Perm Setting.general
  reputation_perm : ∀ order, reputation = some order → order.Perm Setting.ofReputation
  reputation_given : reputation = none → ∀ setting ∈ Setting.ofReputation, given setting = none

namespace Layout

variable {given : Given}

/-- All lines from last to first. -/
def reversed (given : Given) : Layout given where
  general := Setting.general.reverse
  reputation := some Setting.ofReputation.reverse
  general_perm := List.reverse_perm _
  reputation_perm := by
    rintro order ⟨⟩
    exact List.reverse_perm _
  reputation_given := nofun

def sheet (layout : Layout given) : Sheet where
  fields := given.fields layout.general
  table := layout.reputation.map fun order => ("reputation", given.fields order)

end Layout

/-! ## What is written -/

namespace Given

variable {given : Given} {order : List Setting}

theorem fields_cons (setting : Setting) (rest : List Setting) :
    given.fields (setting :: rest) =
      match given setting with
      | none => given.fields rest
      | some number => ⟨setting.name, number⟩ :: given.fields rest := by
  unfold fields
  rw [List.filterMap_cons]
  cases given setting <;> rfl

theorem key_fields {field : Field} (member : field ∈ given.fields order) :
    ∃ setting ∈ order, field.key = setting.name := by
  obtain ⟨setting, isListed, isField⟩ := List.mem_filterMap.mp member
  obtain ⟨number, -, rfl⟩ := Option.map_eq_some_iff.mp isField
  exact ⟨setting, isListed, rfl⟩

theorem bare_fields : ∀ field ∈ given.fields order, Toml.IsBare field.key := by
  intro field member
  obtain ⟨setting, -, isName⟩ := key_fields member
  rw [isName]
  exact setting.isBare_name

theorem key_fields_ne_reputation : "reputation" ∉ (given.fields order).map Field.key := by
  intro member
  obtain ⟨field, isField, isReputation⟩ := List.mem_map.mp member
  obtain ⟨setting, -, isName⟩ := key_fields isField
  exact setting.name_ne_reputation (isName.symm.trans isReputation)

/-- Settings that are listed once have lines with different keys. -/
theorem distinct_fields (distinct : order.Nodup) : ((given.fields order).map Field.key).Nodup := by
  induction order with
  | nil => exact List.nodup_nil
  | cons setting rest inductionHypothesis =>
      obtain ⟨isNew, restDistinct⟩ := List.nodup_cons.mp distinct
      have later := inductionHypothesis restDistinct
      rw [fields_cons]
      cases given setting with
      | none => exact later
      | some number =>
          refine List.nodup_cons.mpr ⟨?_, later⟩
          intro member
          obtain ⟨field, isField, isKey⟩ := List.mem_map.mp member
          obtain ⟨other, isListed, isName⟩ := key_fields isField
          rw [Setting.eq_of_name (isKey.symm.trans isName)] at isNew
          exact isNew isListed

/-- The lines of listed settings hold the given number of each of them, and nothing else. -/
theorem find?_fields (order : List Setting) (setting : Setting) :
    Entries.find? ((given.fields order).map Field.entry) setting.name =
      if setting ∈ order then given.value setting else none := by
  induction order with
  | nil => rfl
  | cons first rest inductionHypothesis =>
      by_cases same : setting = first
      · subst same
        rw [if_pos List.mem_cons_self, fields_cons]
        cases isGiven : given setting with
        | none =>
            have missing : given.value setting = none := by rw [value, isGiven, Option.map_none]
            rw [missing] at inductionHypothesis ⊢
            rw [inductionHypothesis, ite_self]
        | some number =>
            rw [value, isGiven]
            exact List.lookup_cons_self
      · have listed : setting ∈ first :: rest ↔ setting ∈ rest := by
          rw [List.mem_cons, or_iff_right same]
        simp only [listed]
        rw [fields_cons, ← inductionHypothesis]
        cases given first with
        | none => rfl
        | some number =>
            have otherName : (setting.name == first.name) = false :=
              beq_false_of_ne fun sameName => same (Setting.eq_of_name sameName)
            rw [List.map_cons, Field.entry, Entries.find?, List.lookup_cons, otherName]
            rfl

end Given

namespace Layout

variable {given : Given} (layout : Layout given)

theorem valid_sheet : layout.sheet.Valid where
  bare := Given.bare_fields
  distinct := Given.distinct_fields (layout.general_perm.nodup_iff.mpr (by decide))
  table := by
    intro key fields isTable
    obtain ⟨order, isOrder, rfl, rfl⟩ : ∃ order, layout.reputation = some order ∧
        "reputation" = key ∧ given.fields order = fields := by
      simpa [sheet] using isTable
    have distinct : order.Nodup := (layout.reputation_perm order isOrder).nodup_iff.mpr (by decide)
    exact ⟨by decide, Given.key_fields_ne_reputation, Given.bare_fields,
      Given.distinct_fields distinct⟩

/-- The document itself holds the general settings. -/
theorem find?_general (setting : Setting) (isGeneral : setting ∈ Setting.general) :
    layout.sheet.entries.find? setting.name = given.value setting := by
  have inFields : Entries.find? (layout.sheet.fields.map Field.entry) setting.name =
      given.value setting :=
    (Given.find?_fields layout.general setting).trans
      (if_pos (layout.general_perm.mem_iff.mpr isGeneral))
  have noTable : layout.sheet.table.filter (fun table => setting.name == table.1) = none := by
    cases isTable : layout.reputation <;> simp [sheet, isTable, setting.name_ne_reputation]
  rw [Sheet.find?_entries, inFields, noTable, Option.map_none, Option.or_none]

/-- The document holds the table of reputation tracking, if that is written. -/
theorem find?_reputation :
    layout.sheet.entries.find? "reputation" =
      layout.reputation.map fun order => .table .header ((given.fields order).map Field.entry) := by
  have notInFields : Entries.find? (layout.sheet.fields.map Field.entry) "reputation" = none := by
    refine Entries.find?_eq_none ?_
    rw [List.map_map]
    exact Given.key_fields_ne_reputation
  rw [Sheet.find?_entries, notInFields, Option.none_or]
  cases isTable : layout.reputation <;> simp [sheet, isTable]

end Layout

/-! ## What is read -/

namespace SettingType

theorem natural_eq_some_iff {number : Int} {read : Nat} :
    natural number = some read ↔ 0 ≤ number ∧ number.toNat = read := by
  rw [natural, Option.ite_none_right_eq_some, Option.some_inj]

theorem word_eq_some_iff {number : Int} {read : Int32} :
    word number = some read ↔
      (-2147483648 ≤ number ∧ number ≤ 2147483647) ∧ Int32.ofInt number = read := by
  rw [word, Option.ite_none_right_eq_some, Option.some_inj]
  rfl

end SettingType

namespace Given

variable {given : Given} {setting : Setting} {α : Type} {type : SettingType α}

theorem readSetting_of_takes {convert : Int64 → α}
    (takes : ∀ number, given setting = some number → type number.toInt = some (convert number))
    (default : α) :
    readSetting type default (given.value setting) =
      some ((given setting).elim default convert) := by
  rw [value]
  cases isGiven : given setting with
  | none => rfl
  | some number => exact takes number isGiven

theorem takes_of_readSetting {default read : α} {number : Int64}
    (isRead : readSetting type default (given.value setting) = some read)
    (isGiven : given setting = some number) : type number.toInt = some read := by
  rw [value, isGiven] at isRead
  exact isRead

theorem readSetting_natural
    (nonneg : ∀ number, given setting = some number → 0 ≤ number.toInt) (default : Nat) :
    readSetting .natural default (given.value setting) =
      some ((given setting).elim default fun number => number.toInt.toNat) :=
  readSetting_of_takes
    (fun number isGiven => SettingType.natural_eq_some_iff.mpr ⟨nonneg number isGiven, rfl⟩) default

theorem readSetting_word
    (inRange : ∀ number, given setting = some number →
      -2147483648 ≤ number.toInt ∧ number.toInt ≤ 2147483647) (default : Int32) :
    readSetting .word default (given.value setting) =
      some ((given setting).elim default fun number => Int32.ofInt number.toInt) :=
  readSetting_of_takes
    (fun number isGiven => SettingType.word_eq_some_iff.mpr ⟨inRange number isGiven, rfl⟩) default

/-- Reads every setting from what a reader finds of it. -/
def read? (given : Given) : Option Settings := do
  let default : Settings := {}
  pure
    { maxConcurrentRequests :=
        ← readSetting .natural default.maxConcurrentRequests (given.value .maxConcurrentRequests)
      goodbyeTimeoutMs :=
        ← readSetting .natural default.goodbyeTimeoutMs (given.value .goodbyeTimeoutMs)
      reputation := ← Reputation.Policy.ofValues? (Setting.ofReputation.map given.value) }

/-- Numbers of the settings' types override the defaults. -/
theorem read?_of_fits (fits : given.Fits) : given.read? = some given.settings := by
  have policy : Reputation.Policy.ofValues? (Setting.ofReputation.map given.value) =
      some given.settings.reputation := by
    have values : Setting.ofReputation.map given.value =
        [given.value .disconnectThreshold, given.value .maxScore, given.value .banPeriodSecs,
          given.value .maxTrackedPeers] := rfl
    rw [values, Reputation.Policy.ofValues?]
    simp only [List.getElem?_cons_zero, List.getElem?_cons_succ, Option.join_some]
    rw [readSetting_word (fits .disconnectThreshold), readSetting_word (fits .maxScore),
      readSetting_natural (fits .banPeriodSecs), readSetting_natural (fits .maxTrackedPeers)]
    rfl
  rw [read?, readSetting_natural (fits .maxConcurrentRequests),
    readSetting_natural (fits .goodbyeTimeoutMs), policy]
  rfl

/-- One number that is not of its setting's type leaves nothing to read. -/
theorem fits_of_read? {settings : Settings} (isRead : given.read? = some settings) :
    given.Fits := by
  obtain ⟨_, concurrent, isRead⟩ := Option.bind_eq_some_iff.mp isRead
  obtain ⟨_, timeout, isRead⟩ := Option.bind_eq_some_iff.mp isRead
  obtain ⟨_, policy, -⟩ := Option.bind_eq_some_iff.mp isRead
  obtain ⟨_, threshold, policy⟩ := Option.bind_eq_some_iff.mp policy
  obtain ⟨_, maxScore, policy⟩ := Option.bind_eq_some_iff.mp policy
  obtain ⟨_, banPeriod, policy⟩ := Option.bind_eq_some_iff.mp policy
  obtain ⟨_, maxTracked, -⟩ := Option.bind_eq_some_iff.mp policy
  intro setting number isGiven
  cases setting with
  | maxConcurrentRequests =>
      exact (SettingType.natural_eq_some_iff.mp (takes_of_readSetting concurrent isGiven)).1
  | goodbyeTimeoutMs =>
      exact (SettingType.natural_eq_some_iff.mp (takes_of_readSetting timeout isGiven)).1
  | disconnectThreshold =>
      exact (SettingType.word_eq_some_iff.mp (takes_of_readSetting threshold isGiven)).1
  | maxScore =>
      exact (SettingType.word_eq_some_iff.mp (takes_of_readSetting maxScore isGiven)).1
  | banPeriodSecs =>
      exact (SettingType.natural_eq_some_iff.mp (takes_of_readSetting banPeriod isGiven)).1
  | maxTrackedPeers =>
      exact (SettingType.natural_eq_some_iff.mp (takes_of_readSetting maxTracked isGiven)).1

end Given

namespace Layout

variable {given : Given} (layout : Layout given)

/-- A table that is missing has no settings to give, and so reads like one without lines. -/
theorem ofValue?_reputation :
    Reputation.Policy.ofValue? (layout.sheet.entries.find? "reputation") =
      Reputation.Policy.ofValues? (Setting.ofReputation.map given.value) := by
  rw [layout.find?_reputation]
  cases isTable : layout.reputation with
  | none =>
      have missing : ∀ setting ∈ Setting.ofReputation, given.value setting = none := by
        intro setting listed
        rw [Given.value, layout.reputation_given isTable setting listed, Option.map_none]
      rw [List.map_congr_left missing]
      rfl
  | some order =>
      have found : ∀ setting ∈ Setting.ofReputation,
          Entries.find? ((given.fields order).map Field.entry) setting.name =
            given.value setting := by
        intro setting listed
        rw [Given.find?_fields, if_pos ((layout.reputation_perm order isTable).mem_iff.mpr listed)]
      rw [← List.map_congr_left found]
      rfl

/-- From the written text every setting is read as from the number that was given. -/
theorem ofEntries?_text : (Toml.read? layout.sheet.text).bind Settings.ofEntries? = given.read? := by
  have concurrent : layout.sheet.entries.find? "max_concurrent_requests" =
      given.value .maxConcurrentRequests := layout.find?_general .maxConcurrentRequests (by decide)
  have timeout : layout.sheet.entries.find? "goodbye_timeout_ms" = given.value .goodbyeTimeoutMs :=
    layout.find?_general .goodbyeTimeoutMs (by decide)
  rw [Sheet.read?_text layout.valid_sheet, Option.bind_some, Settings.ofEntries?, concurrent, timeout,
    layout.ofValue?_reputation]
  rfl

end Layout

namespace Settings

/-! ## Rules -/

/-- The rules in the order of their checks: whether settings keep each of them, and what is said of
settings that break it. -/
def rules (settings : Settings) : List (Bool × String) :=
  [(decide (1 ≤ settings.maxConcurrentRequests),
      "Invalid config: max_concurrent_requests must be at least 1"),
    (decide (settings.reputation.disconnectThreshold < 0),
      "Invalid config: reputation.disconnect_threshold must be negative, got " ++
        toString settings.reputation.disconnectThreshold.toInt),
    (decide (1 ≤ settings.reputation.maxScore),
      "Invalid config: reputation.max_score must be positive, got " ++
        toString settings.reputation.maxScore.toInt)]

/-- What is said of the first rule that settings break. -/
def firstComplaint? (settings : Settings) : Option String :=
  (settings.rules.find? fun rule => !rule.1).map Prod.snd

theorem violation?_eq (settings : Settings) :
    settings.violation? =
      if 1 ≤ settings.maxConcurrentRequests then
        if settings.reputation.disconnectThreshold < 0 then
          if 1 ≤ settings.reputation.maxScore then none
          else some (.maxScoreNotPositive settings.reputation.maxScore)
        else some (.thresholdNotNegative settings.reputation.disconnectThreshold)
      else some .noConcurrency := by
  have concurrency : settings.maxConcurrentRequests = 0 ↔ ¬ 1 ≤ settings.maxConcurrentRequests := by
    omega
  have threshold : 0 ≤ settings.reputation.disconnectThreshold ↔
      ¬ settings.reputation.disconnectThreshold < 0 := Int32.not_lt.symm
  have maxScore : settings.reputation.maxScore < 1 ↔ ¬ 1 ≤ settings.reputation.maxScore :=
    Int32.not_le.symm
  simp only [violation?, concurrency, threshold, maxScore, ite_not]

theorem violation?_eq_none_iff {settings : Settings} :
    settings.violation? = none ↔
      1 ≤ settings.maxConcurrentRequests ∧ settings.reputation.disconnectThreshold < 0 ∧
        1 ≤ settings.reputation.maxScore := by
  rw [violation?_eq]
  split_ifs with concurrent isNegative isPositive
  · exact ⟨fun _ => ⟨concurrent, isNegative, isPositive⟩, fun _ => rfl⟩
  · exact ⟨nofun, fun kept => absurd kept.2.2 isPositive⟩
  · exact ⟨nofun, fun kept => absurd kept.2.1 isNegative⟩
  · exact ⟨nofun, fun kept => absurd kept.1 concurrent⟩

/-- What is said of a violation is what the first broken rule says. -/
theorem text_violation? (settings : Settings) :
    settings.violation?.map SettingsViolation.text = settings.firstComplaint? := by
  rw [violation?_eq, firstComplaint?, rules]
  split_ifs with concurrent isNegative isPositive
  · simp [concurrent, isNegative, isPositive]
  · simp only [concurrent, isNegative, isPositive]
    rfl
  · simp only [concurrent, isNegative]
    rfl
  · simp only [concurrent]
    rfl

end Settings

/-! ## Main result -/

namespace Layout

variable {given : Given} (layout : Layout given)

theorem read_of_fits (fits : given.Fits) :
    Settings.read layout.sheet.text =
      given.settings.violation?.elim (.ok given.settings) fun violation =>
        .error (.violation violation) := by
  rw [Settings.read, layout.ofEntries?_text, Given.read?_of_fits fits]
  cases broken : given.settings.violation? with
  | none => simp only [broken, Option.elim_none]
  | some violation => simp only [broken, Option.elim_some]

theorem read_of_not_fits (unfit : ¬ given.Fits) :
    Settings.read layout.sheet.text = .error .malformed := by
  have nothing : given.read? = none := by
    rw [Option.eq_none_iff_forall_ne_some]
    intro settings isRead
    exact unfit (Given.fits_of_read? isRead)
  rw [Settings.read, layout.ofEntries?_text, nothing]

end Layout

/-- The ends of some settings' types. -/
def Given.atLimits : Given
  | .goodbyeTimeoutMs => some 9223372036854775807
  | .disconnectThreshold => some (-2147483648)
  | .maxScore => some 2147483647
  | .maxConcurrentRequests | .banPeriodSecs | .maxTrackedPeers => none

example : (Layout.reversed Given.atLimits).sheet.text =
    "goodbye_timeout_ms = 9223372036854775807\n[reputation]\n" ++
      "max_score = 2147483647\ndisconnect_threshold = -2147483648\n" := by
  decide +kernel

namespace Settings

/-- A document of given settings is malformed just if one of the numbers is not of its setting's type.
If all of them are, the defaults overridden by the numbers are read, unless these settings break a
rule; the first broken rule is then reported. -/
theorem read_written (given : Given) (layout : Layout given) :
    (read layout.sheet.text = .error .malformed ↔
      ∃ setting number, given setting = some number ∧ ¬ setting.Takes number) ∧
    (given.Fits →
      (read layout.sheet.text = .ok given.settings ↔
        1 ≤ given.settings.maxConcurrentRequests ∧
          given.settings.reputation.disconnectThreshold < 0 ∧
          1 ≤ given.settings.reputation.maxScore) ∧
      (read layout.sheet.text ≠ .ok given.settings →
        ∃ violation, read layout.sheet.text = .error (.violation violation) ∧
          given.settings.firstComplaint? = some violation.text)) := by
  have unfit_iff : (∃ setting number, given setting = some number ∧ ¬ setting.Takes number) ↔
      ¬ given.Fits := by
    simp only [Given.Fits, not_forall, exists_prop]
  rw [unfit_iff]
  by_cases fits : given.Fits
  · have text := text_violation? given.settings
    rw [layout.read_of_fits fits, ← violation?_eq_none_iff]
    cases broken : given.settings.violation? with
    | none => exact ⟨⟨nofun, fun unfit => absurd fits unfit⟩,
        fun _ => ⟨⟨fun _ => rfl, fun _ => rfl⟩, fun refused => absurd rfl refused⟩⟩
    | some violation =>
        rw [broken] at text
        exact ⟨⟨nofun, fun unfit => absurd fits unfit⟩,
          fun _ => ⟨⟨nofun, nofun⟩, fun _ => ⟨violation, rfl, text.symm⟩⟩⟩
  · exact ⟨⟨fun _ => fits, fun _ => layout.read_of_not_fits fits⟩, fun isFit => absurd isFit fits⟩

/-- Lines from last to first, with numbers at the ends of their types. -/
theorem read_written_atLimits :
    Given.atLimits.Fits ∧
      read (Layout.reversed Given.atLimits).sheet.text =
        .ok { goodbyeTimeoutMs := 9223372036854775807
              reputation := { disconnectThreshold := -2147483648, maxScore := 2147483647 } } := by
  have fits : Given.atLimits.Fits := by
    intro setting number isGiven
    cases setting <;> cases isGiven <;> decide
  have kept : 1 ≤ Given.atLimits.settings.maxConcurrentRequests ∧
      Given.atLimits.settings.reputation.disconnectThreshold < 0 ∧
      1 ≤ Given.atLimits.settings.reputation.maxScore := by
    decide
  exact ⟨fits, (((read_written Given.atLimits (Layout.reversed Given.atLimits)).2 fits).1).mpr kept⟩

end Settings

end PeerLink
