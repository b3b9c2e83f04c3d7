import Checkup.Proofs.Steps
import Checkup.Settings

/-!
# The schema of settings

Nine fields of a table are read, each of which may be absent or null or has a shape of its own.
They are checked in a fixed order, and the first that does not fit is reported (`reports_ofTable`).
`ofTable_outcome` adds what the settings are if all fit, and that nothing else in the table counts.
-/

namespace Checkup.Settings

/-- What a field is set to by the value that stands there. -/
inductive Holds {α : Type} (encode : α → Value) : Option Value → Option α → Prop
  | absent : Holds encode none none
  | null : Holds encode (some .null) none
  | given (a : α) : Holds encode (some (encode a)) (some a)

/-- The shape that a field must have. -/
inductive Shape where
  | table
  | strings
  | boolean

namespace Shape

/-- The value is absent, null or of the shape. -/
def Admits (value : Option Value) : Shape → Prop
  | table => ∃ given, Holds .table value given
  | strings => ∃ given, Holds .ofTexts value given
  | boolean => ∃ given, Holds .bool value given

def words : Shape → String
  | table => "a table/object"
  | strings => "a list of strings"
  | boolean => "a boolean"

end Shape

/-- A field by its name, with the value that stands there. -/
structure Field where
  name : String
  shape : Shape
  value : Option Value

namespace Field

def Fits (field : Field) : Prop := field.shape.Admits field.value

/-- The fault of a field that does not fit. -/
def fault (field : Field) : ShapeFault :=
  match field.shape with
  | .table => .notTable field.name
  | .strings => .notStrings field.name
  | .boolean => .notBoolean field.name

theorem message_fault (field : Field) :
    field.fault.message = field.name ++ " must be " ++ field.shape.words := by
  rw [fault]
  cases field.shape <;> rw [String.append_assoc] <;> rfl

end Field

/-- The value under a key of an inner table. -/
def within (outer : Option Value) (key : String) : Option Value :=
  match outer with
  | some (.table entries) => Table.get? entries key
  | _ => none

/-- The fields of a table, in the order in which they are checked. -/
def fields (table : Table) : List Field :=
  [⟨"ignore", .table, table.get? "ignore"⟩,
    ⟨"rules", .table, table.get? "rules"⟩,
    ⟨"ignore.rules", .strings, within (table.get? "ignore") "rules"⟩,
    ⟨"ignore.files", .strings, within (table.get? "ignore") "files"⟩,
    ⟨"rules.enable", .strings, within (table.get? "rules") "enable"⟩,
    ⟨"rules.disable", .strings, within (table.get? "rules") "disable"⟩,
    ⟨"lint", .boolean, table.get? "lint"⟩,
    ⟨"dead_code", .boolean, (table.get? "deadCode").or (table.get? "dead_code")⟩,
    ⟨"verbose", .boolean, table.get? "verbose"⟩]

/-- The settings are what the fields of a table are set to. Lists that are not given are empty, but
for that of the rules to use. -/
structure SpelledBy (settings : Settings) (table : Table) : Prop where
  ignoredRules : ∃ given, Holds .ofTexts (within (table.get? "ignore") "rules") given ∧
    settings.suppression.rules = given.getD []
  ignoredFiles : ∃ given, Holds .ofTexts (within (table.get? "ignore") "files") given ∧
    settings.suppression.files = given.getD []
  enable : Holds .ofTexts (within (table.get? "rules") "enable") settings.enable
  disable : ∃ given, Holds .ofTexts (within (table.get? "rules") "disable") given ∧
    settings.disable = given.getD []
  lint : Holds .bool (table.get? "lint") settings.lint
  deadCode : Holds .bool ((table.get? "deadCode").or (table.get? "dead_code")) settings.deadCode
  verbose : Holds .bool (table.get? "verbose") settings.verbose

/-- The same value, or two tables that differ in other keys only. -/
def AlikeWithin (keys : List String) (left right : Option Value) : Prop :=
  left = right ∨ ∃ entries others, left = some (.table entries) ∧ right = some (.table others) ∧
    ∀ key ∈ keys, Table.get? entries key = Table.get? others key

/-- Two tables that differ in keys only that are not read. -/
structure Alike (left right : Table) : Prop where
  ignore : AlikeWithin ["rules", "files"] (left.get? "ignore") (right.get? "ignore")
  rules : AlikeWithin ["enable", "disable"] (left.get? "rules") (right.get? "rules")
  lint : left.get? "lint" = right.get? "lint"
  deadCode : (left.get? "deadCode").or (left.get? "dead_code") =
    (right.get? "deadCode").or (right.get? "dead_code")
  verbose : left.get? "verbose" = right.get? "verbose"

/-- The first of some fields that does not fit. -/
inductive FirstMisfit : List Field → Field → Prop
  | here {field rest} : ¬ field.Fits → FirstMisfit (field :: rest) field
  | later {first rest field} : first.Fits → FirstMisfit rest field →
      FirstMisfit (first :: rest) field

/-- What becomes of checking some fields: all of them fit, or the first that does not is reported. -/
def Reports {α : Type} (fields : List Field) : Except ShapeFault α → Prop
  | .ok _ => ∀ field ∈ fields, field.Fits
  | .error fault => ∃ field, FirstMisfit fields field ∧ fault = field.fault

/-! ### One field -/

section

variable {name : String} {value : Option Value}

theorem tableAt_eq_ok_iff {entries : Table} : tableAt name value = .ok entries ↔
    ∃ given, Holds .table value given ∧ entries = given.getD [] := by
  constructor
  · intro read
    unfold tableAt at read
    split at read <;> cases read
    · exact ⟨none, .absent, rfl⟩
    · exact ⟨none, .null, rfl⟩
    · exact ⟨some entries, .given entries, rfl⟩
  · rintro ⟨given, holds, rfl⟩
    cases holds <;> rfl

theorem texts?_eq_some_iff {items : List Value} {texts : List CodeText} :
    texts? items = some texts ↔ items = texts.map .str := by
  induction items generalizing texts with
  | nil => cases texts <;> simp [texts?]
  | cons item items ih =>
    cases item with
    | str text =>
      cases texts with
      | nil => simp [texts?]
      | cons first rest => simpa [texts?, ih] using and_comm
    | _ => cases texts <;> simp [texts?]

theorem textsAt?_eq_ok_iff {given : Option (List CodeText)} :
    textsAt? name value = .ok given ↔ Holds .ofTexts value given := by
  constructor
  · intro read
    unfold textsAt? at read
    split at read
    · cases read
      exact .absent
    · cases read
      exact .null
    · split at read <;> cases read
      next texts known =>
        rw [texts?_eq_some_iff.mp known]
        exact .given texts
    · cases read
  · intro holds
    cases holds with
    | absent => rfl
    | null => rfl
    | given texts => simp [textsAt?, Value.ofTexts, texts?_eq_some_iff.mpr rfl]

theorem flagAt?_eq_ok_iff {given : Option Bool} :
    flagAt? name value = .ok given ↔ Holds .bool value given := by
  constructor
  · intro read
    unfold flagAt? at read
    split at read <;> cases read
    · exact .absent
    · exact .null
    · exact .given _
  · intro holds
    cases holds <;> rfl

end

/-! ### One field after the other -/

section

variable {α β : Type} {field : Field}

theorem FirstMisfit.not_fits {fields : List Field} (misfit : FirstMisfit fields field) :
    ∃ other ∈ fields, ¬ other.Fits := by
  induction misfit with
  | here unfit => exact ⟨_, List.mem_cons_self, unfit⟩
  | later _ _ ih =>
    obtain ⟨other, member, unfit⟩ := ih
    exact ⟨other, List.mem_cons_of_mem _ member, unfit⟩

theorem FirstMisfit.unique {fields : List Field} {other : Field}
    (misfit : FirstMisfit fields field) (also : FirstMisfit fields other) : field = other := by
  induction misfit with
  | here unfit =>
    cases also with
    | here _ => rfl
    | later fits _ => exact absurd fits unfit
  | later fits _ ih =>
    cases also with
    | here unfit => exact absurd fits unfit
    | later _ also => exact ih also

theorem reports_singleton {read : Except ShapeFault α} (fits : (∃ a, read = .ok a) ↔ field.Fits)
    (faults : ∀ fault, read = .error fault → fault = field.fault) : Reports [field] read := by
  cases read with
  | ok a => simpa [Reports] using fits.mp ⟨a, rfl⟩
  | error fault =>
    have misfit : ¬ field.Fits := by
      intro admitted
      obtain ⟨a, read⟩ := fits.mpr admitted
      cases read
    exact ⟨field, .here misfit, faults fault rfl⟩

theorem reports_bind {rest : List Field} {read : Except ShapeFault α}
    {next : α → Except ShapeFault β} (here : Reports [field] read)
    (onward : ∀ a, read = .ok a → Reports rest (next a)) :
    Reports (field :: rest) (read >>= next) := by
  cases read with
  | error fault =>
    obtain ⟨first, misfit, same⟩ := here
    cases misfit with
    | here unfit => exact ⟨field, .here unfit, same⟩
    | later _ misfit => cases misfit
  | ok a =>
    have fits : field.Fits := by simpa [Reports] using here
    have later := onward a rfl
    show Reports _ (next a)
    cases outcome : next a with
    | ok b =>
      rw [outcome] at later
      exact List.forall_mem_cons.mpr ⟨fits, later⟩
    | error fault =>
      rw [outcome] at later
      obtain ⟨first, misfit, same⟩ := later
      exact ⟨first, .later fits misfit, same⟩

theorem Reports.exists_ok_iff {fields : List Field} {outcome : Except ShapeFault α}
    (reports : Reports fields outcome) :
    (∃ a, outcome = .ok a) ↔ ∀ field ∈ fields, field.Fits := by
  cases outcome with
  | ok a => exact iff_of_true ⟨a, rfl⟩ reports
  | error fault =>
    obtain ⟨_, misfit, _⟩ := reports
    obtain ⟨field, member, unfit⟩ := misfit.not_fits
    exact iff_of_false nofun fun fit => unfit (fit field member)

theorem Reports.eq_error_iff {fields : List Field} {outcome : Except ShapeFault α}
    (reports : Reports fields outcome) {fault : ShapeFault} :
    outcome = .error fault ↔ ∃ field, FirstMisfit fields field ∧ fault = field.fault := by
  cases outcome with
  | ok a =>
    refine iff_of_false nofun ?_
    rintro ⟨_, misfit, _⟩
    obtain ⟨field, member, unfit⟩ := misfit.not_fits
    exact unfit (reports field member)
  | error reported =>
    obtain ⟨first, misfit, rfl⟩ := reports
    constructor
    · rintro ⟨⟩
      exact ⟨first, misfit, rfl⟩
    · rintro ⟨field, also, rfl⟩
      rw [misfit.unique also]

theorem reports_tableAt (name : String) (value : Option Value) :
    Reports [⟨name, .table, value⟩] (tableAt name value) := by
  apply reports_singleton
  · simp only [tableAt_eq_ok_iff]
    constructor
    · rintro ⟨_, given, holds, _⟩
      exact ⟨given, holds⟩
    · rintro ⟨given, holds⟩
      exact ⟨_, given, holds, rfl⟩
  · intro fault failed
    unfold tableAt at failed
    split at failed <;> cases failed
    rfl

theorem reports_textsAt? (name : String) (value : Option Value) :
    Reports [⟨name, .strings, value⟩] (textsAt? name value) := by
  apply reports_singleton
  · simp only [textsAt?_eq_ok_iff]
    rfl
  · intro fault failed
    unfold textsAt? at failed
    repeat' split at failed
    all_goals cases failed
    all_goals rfl

theorem reports_flagAt? (name : String) (value : Option Value) :
    Reports [⟨name, .boolean, value⟩] (flagAt? name value) := by
  apply reports_singleton
  · simp only [flagAt?_eq_ok_iff]
    rfl
  · intro fault failed
    unfold flagAt? at failed
    split at failed <;> cases failed
    rfl

end

theorem get?_of_tableAt {name : String} {value : Option Value} {entries : Table}
    (read : tableAt name value = .ok entries) (key : String) :
    entries.get? key = within value key := by
  obtain ⟨given, holds, rfl⟩ := tableAt_eq_ok_iff.mp read
  cases holds <;> rfl

theorem either?_eq_or (table : Table) (first second : String) :
    either? table first second = (table.get? first).or (table.get? second) := by
  rw [either?, Table.has]
  cases table.get? first <;> rfl

theorem reports_ofTable (table : Table) (source : String) :
    Reports (fields table) (ofTable table source) := by
  refine reports_bind (reports_tableAt _ _) fun ignore inIgnore => ?_
  refine reports_bind (reports_tableAt _ _) fun rules inRules => ?_
  simp only [← get?_of_tableAt inIgnore, ← get?_of_tableAt inRules, ← either?_eq_or]
  refine reports_bind (reports_textsAt? _ _) fun ignoredRules _ => ?_
  refine reports_bind (reports_textsAt? _ _) fun ignoredFiles _ => ?_
  refine reports_bind (reports_textsAt? _ _) fun enable _ => ?_
  refine reports_bind (reports_textsAt? _ _) fun disable _ => ?_
  refine reports_bind (reports_flagAt? _ _) fun lint _ => ?_
  refine reports_bind (reports_flagAt? _ _) fun deadCode _ => ?_
  refine reports_bind (reports_flagAt? _ _) fun verbose _ => ?_
  exact List.forall_mem_nil _

/-! ### All fields -/

theorem spelledBy_of_ofTable {table : Table} {source : String} {settings : Settings}
    (read : ofTable table source = .ok settings) :
    settings.SpelledBy table ∧ settings.source = some source := by
  unfold ofTable at read
  obtain ⟨ignore, inIgnore, read⟩ := exists_of_bind read
  obtain ⟨rules, inRules, read⟩ := exists_of_bind read
  simp only [get?_of_tableAt inIgnore, get?_of_tableAt inRules, either?_eq_or] at read
  obtain ⟨ignoredRules, ignoredRulesRead, read⟩ := exists_of_bind read
  obtain ⟨ignoredFiles, ignoredFilesRead, read⟩ := exists_of_bind read
  obtain ⟨enable, enableRead, read⟩ := exists_of_bind read
  obtain ⟨disable, disableRead, read⟩ := exists_of_bind read
  obtain ⟨lint, lintRead, read⟩ := exists_of_bind read
  obtain ⟨deadCode, deadCodeRead, read⟩ := exists_of_bind read
  obtain ⟨verbose, verboseRead, read⟩ := exists_of_bind read
  cases read
  refine ⟨?_, rfl⟩
  exact {
    ignoredRules := ⟨ignoredRules, textsAt?_eq_ok_iff.mp ignoredRulesRead, rfl⟩
    ignoredFiles := ⟨ignoredFiles, textsAt?_eq_ok_iff.mp ignoredFilesRead, rfl⟩
    enable := textsAt?_eq_ok_iff.mp enableRead
    disable := ⟨disable, textsAt?_eq_ok_iff.mp disableRead, rfl⟩
    lint := flagAt?_eq_ok_iff.mp lintRead
    deadCode := flagAt?_eq_ok_iff.mp deadCodeRead
    verbose := flagAt?_eq_ok_iff.mp verboseRead }

theorem tableAt_bind_congr {α : Type} {keys : List String} {left right : Option Value}
    (alike : AlikeWithin keys left right) (name : String) {next also : Table → Except ShapeFault α}
    (onward : ∀ entries others : Table,
      (∀ key ∈ keys, entries.get? key = others.get? key) → next entries = also others) :
    (tableAt name left >>= next) = (tableAt name right >>= also) := by
  rcases alike with rfl | ⟨entries, others, rfl, rfl, agree⟩
  · cases tableAt name left with
    | error fault => rfl
    | ok entries => exact onward entries entries fun _ _ => rfl
  · exact onward entries others agree

theorem ofTable_congr {left right : Table} (alike : Alike left right) (source : String) :
    ofTable left source = ofTable right source := by
  refine tableAt_bind_congr alike.ignore _ fun ignore others inIgnore => ?_
  refine tableAt_bind_congr alike.rules _ fun rules otherRules inRules => ?_
  simp only [inIgnore "rules" (by simp), inIgnore "files" (by simp), inRules "enable" (by simp),
    inRules "disable" (by simp), either?_eq_or, alike.lint, alike.deadCode, alike.verbose]

/-- A table gives settings exactly if all its fields fit, and the settings are what the fields are
set to. Otherwise the first field that does not fit is named. Other keys have no influence. -/
theorem ofTable_outcome (table : Table) (source : String) :
    ((∃ settings, ofTable table source = .ok settings) ↔ ∀ field ∈ fields table, field.Fits) ∧
    (∀ settings, ofTable table source = .ok settings →
      settings.SpelledBy table ∧ settings.source = some source) ∧
    (∀ fault, ofTable table source = .error fault ↔ ∃ field, FirstMisfit (fields table) field ∧
      fault = field.fault ∧ fault.message = field.name ++ " must be " ++ field.shape.words) ∧
    ∀ other, Alike table other → ofTable other source = ofTable table source := by
  have reports := reports_ofTable table source
  refine ⟨reports.exists_ok_iff, ?_, ?_, ?_⟩
  · intro settings read
    exact spelledBy_of_ofTable read
  · intro fault
    rw [reports.eq_error_iff]
    constructor
    · rintro ⟨field, misfit, rfl⟩
      exact ⟨field, misfit, rfl, field.message_fault⟩
    · rintro ⟨field, misfit, same, _⟩
      exact ⟨field, misfit, same⟩
  · intro other alike
    exact (ofTable_congr alike source).symm

/-- Null under the first spelling of a key hides a number under the second, an empty list of rules
to use is not the same as none, and both tables have keys that are not read. -/
theorem ofTable_outcome_of_odd :
    let rules : Table := [("enable", .list []), ("files", .int 1)]
    let table : Table := [("deadCode", .null), ("dead_code", .int 0), ("rules", .table rules)]
    let fewer : Table := [("enable", .list [])]
    let other : Table := [("deadCode", .null), ("rules", .table fewer), ("theme", .null)]
    let settings : Settings := { enable := some [], source := some "settings.json" }
    ofTable table "settings.json" = .ok settings ∧ settings.SpelledBy table ∧ Alike table other ∧
      ofTable other "settings.json" = .ok settings := by
  intro rules table fewer other settings
  have read : ofTable table "settings.json" = .ok settings := by rfl
  have inRules : ∀ key ∈ ["enable", "disable"], Table.get? rules key = Table.get? fewer key := by
    intro key member
    rcases List.mem_cons.mp member with rfl | last
    · rfl
    · obtain rfl := List.mem_singleton.mp last
      rfl
  have alike : Alike table other := {
    ignore := .inl (by rfl)
    rules := .inr ⟨rules, fewer, by rfl, by rfl, inRules⟩
    lint := by rfl
    deadCode := by rfl
    verbose := by rfl }
  obtain ⟨_, spelled, _, same⟩ := ofTable_outcome table "settings.json"
  exact ⟨read, (spelled settings read).1, alike, (same other alike).trans read⟩

end Checkup.Settings
