import Clearance.Proofs.Outcome
import Clearance.Settings
import Mathlib.Data.List.Basic

/-!
# What settings are read

Settings that are read can be relied on, whatever the environment holds and whatever is given
directly (`Clearance.Settings.IsValid`), and nothing needs to be given for that
(`Clearance.Settings.read_nothing`). If none are read, something is complained about. Either it is
the database as a whole, and then nothing else is, or it is each setting that was given with a
value that is refused, and no other (`Clearance.Settings.read_spec`).
-/

namespace Clearance

/-! ### The default database -/

namespace Dsn

variable {driver path : List Char}

theorem splitDriver_append (hempty : driver ≠ [])
    (hdriver : ∀ c ∈ driver, isDriverChar c = true) :
    splitDriver (driver ++ ':' :: '/' :: '/' :: path) = some (driver, path) := by
  have hcolon : isDriverChar ':' = false := by decide +kernel
  rw [splitDriver, List.takeWhile_append_of_pos hdriver, List.dropWhile_append_of_pos hdriver,
    List.takeWhile_cons_of_neg (by simp [hcolon]), List.dropWhile_cons_of_neg (by simp [hcolon]),
    List.append_nil]
  simp [hempty]

/-- Nothing can go wrong with a name that tells no user, host or port. -/
theorem exists_read {text : String} (hempty : driver ≠ [])
    (hdriver : ∀ c ∈ driver, isDriverChar c = true)
    (htext : text.toList = driver ++ ':' :: '/' :: '/' :: '/' :: path) :
    ∃ dsn, read text = .ok dsn := by
  rw [read, htext, splitDriver_append hempty hdriver]
  have hhost : afterHost (afterUser ('/' :: path)) = '/' :: path := rfl
  dsimp only
  rw [hhost]
  exact ⟨_, rfl⟩

end Dsn

namespace Settings

variable {directory : String} {environment : List (String × String)} {direct : Members}
  {value : Value} {problem : Problem} {settings completedSettings : Settings}
  {complaints : List Complaint}

/-- The default database can be named, whatever the directory. -/
theorem exists_read_defaultDsn (directory : String) :
    ∃ dsn, Dsn.read (defaultDsn directory) = .ok dsn := by
  have hstart : "sqlite+aiosqlite:///".toList =
      "sqlite+aiosqlite".toList ++ [':', '/', '/', '/'] := by decide
  have hdriver : "sqlite+aiosqlite".toList.all Dsn.isDriverChar = true := by decide +kernel
  refine @Dsn.exists_read "sqlite+aiosqlite".toList
    (directory.toList ++ "/data/db/oort.sqlite".toList) _ (by decide)
    (List.all_eq_true.mp hdriver) ?_
  unfold defaultDsn
  simp only [String.toList_append, hstart, List.append_assoc]
  rfl

/-! ### Single settings -/

theorem ruleDepth_eq_ok_iff {depth : Int} :
    ruleDepth value = .ok depth ↔ wholeNumber value = .ok depth ∧ 1 ≤ depth ∧ depth ≤ 256 := by
  rw [ruleDepth, Outcome.bind_eq_ok]
  constructor
  · rintro ⟨whole, hwhole, h⟩
    split at h
    · cases h
    split at h
    · cases h
    obtain rfl := Except.ok.inj h
    exact ⟨hwhole, by omega, by omega⟩
  · rintro ⟨hwhole, hlow, hhigh⟩
    refine ⟨depth, hwhole, ?_⟩
    rw [if_neg (by omega), if_neg (by omega)]
    rfl

theorem levelName_ne_empty : levelName value ≠ "" := by
  have hword : ∀ level : String, (if level.isEmpty then "INFO" else level) ≠ "" := by
    intro level
    cases hempty : level.isEmpty with
    | true => simp
    | false =>
      rintro rfl
      simp at hempty
  unfold levelName
  exact hword _

theorem readOr_eq_ok {α : Type} {read : Value → Except Problem α} {default result : α}
    {given : Option Value} (h : readOr read default given = .ok result) :
    result = default ∨ ∃ value, read value = .ok result := by
  cases given with
  | none => exact .inl (Except.ok.inj h).symm
  | some value => exact .inr ⟨value, h⟩

theorem readOr_eq_error_iff {α : Type} {read : Value → Except Problem α} {default : α}
    {given : Option Value} : readOr read default given = .error problem ↔
      ∃ value, given = some value ∧ read value = .error problem := by
  cases given <;> simp [readOr]

/-- What is **wrong with a value** that is given for a setting. Any value names a level. -/
inductive Refuses : Setting → Value → Problem → Prop
  | appName {value : Value} {problem : Problem} (h : textValue value = .error problem) :
      Refuses .appName value problem
  | databaseDsn {value : Value} {problem : Problem} (h : textOrNothing value = .error problem) :
      Refuses .databaseDsn value problem
  | databaseEcho {value : Value} {problem : Problem} (h : truthValue value = .error problem) :
      Refuses .databaseEcho value problem
  | maxRuleDepth {value : Value} {problem : Problem} (h : ruleDepth value = .error problem) :
      Refuses .maxRuleDepth value problem

/-! ### All settings -/

/-- Settings that are **valid**: there is a level, the database can be named, and the number of
levels of a rule is within its range. -/
structure IsValid (settings : Settings) : Prop where
  /-- There is a level. -/
  level : settings.loggingLevel ≠ ""
  /-- The database can be named. -/
  database : ∃ dsn, Dsn.read settings.databaseDsn = .ok dsn
  /-- Rules may have some levels, but not too many. -/
  depth : 1 ≤ settings.maxRuleDepth ∧ settings.maxRuleDepth ≤ 256

theorem isValid_completed (h : completed directory settings = .ok completedSettings)
    (hlevel : settings.loggingLevel ≠ "")
    (hdepth : 1 ≤ settings.maxRuleDepth ∧ settings.maxRuleDepth ≤ 256) :
    completedSettings.IsValid := by
  rw [completed] at h
  split at h
  · next dsn hdsn =>
    obtain rfl := Except.ok.inj h
    exact ⟨hlevel, ⟨dsn, hdsn⟩, hdepth⟩
  · cases h

theorem completed_eq_error (h : completed directory settings = .error complaints) :
    complaints = [⟨none, .invalid⟩] := by
  rw [completed] at h
  split at h
  · cases h
  · exact (Except.error.inj h).symm

theorem complaint?_eq_some_iff {α : Type} {setting : Setting} {result : Except Problem α}
    {complaint : Complaint} : complaint? setting result = some complaint ↔
      complaint.setting = some setting ∧ result = .error complaint.problem := by
  obtain ⟨about, problem⟩ := complaint
  cases result <;> simp [complaint?, eq_comm]

theorem exists_ok_of_complaint?_eq_none {α : Type} {setting : Setting} {result : Except Problem α}
    (h : complaint? setting result = none) : ∃ value, result = .ok value := by
  cases result with
  | ok value => exact ⟨value, rfl⟩
  | error _ => cases h

theorem isValid_of_read (h : read directory environment direct = .ok settings) :
    settings.IsValid := by
  unfold read at h
  dsimp only at h
  split at h
  · next appName level dsn echo depth happName hlevel hdsn hecho hdepth =>
    refine isValid_completed h (?_ : level ≠ "") (?_ : 1 ≤ depth ∧ depth ≤ 256)
    · rcases readOr_eq_ok hlevel with rfl | ⟨value, hvalue⟩
      · simp
      · obtain rfl : levelName value = level := Except.ok.inj hvalue
        exact levelName_ne_empty
    · rcases readOr_eq_ok hdepth with rfl | ⟨value, hvalue⟩
      · decide
      · exact (ruleDepth_eq_ok_iff.mp hvalue).2
  · cases h

theorem complaints_of_read (h : read directory environment direct = .error complaints) :
    complaints = [⟨none, .invalid⟩] ∨
      complaints ≠ [] ∧ ∀ complaint, complaint ∈ complaints ↔ ∃ setting value,
        complaint.setting = some setting ∧ given? environment direct setting = some value ∧
        Refuses setting value complaint.problem := by
  unfold read at h
  dsimp only at h
  split at h
  · exact .inl (completed_eq_error h)
  · next hnone =>
    obtain rfl := Except.error.inj h
    refine .inr ⟨fun hempty => ?_, fun complaint => ?_⟩
    · -- without a complaint each of the settings would have been read
      simp only [List.filterMap_eq_nil_iff, List.forall_mem_cons, id_eq] at hempty
      obtain ⟨happName, hlevel, hdsn, hecho, hdepth, -⟩ := hempty
      obtain ⟨_, happName⟩ := exists_ok_of_complaint?_eq_none happName
      obtain ⟨_, hlevel⟩ := exists_ok_of_complaint?_eq_none hlevel
      obtain ⟨_, hdsn⟩ := exists_ok_of_complaint?_eq_none hdsn
      obtain ⟨_, hecho⟩ := exists_ok_of_complaint?_eq_none hecho
      obtain ⟨_, hdepth⟩ := exists_ok_of_complaint?_eq_none hdepth
      exact hnone _ _ _ _ _ happName hlevel hdsn hecho hdepth
    · simp only [List.mem_filterMap, id_eq, exists_eq_right, List.mem_cons, List.not_mem_nil,
        or_false, @eq_comm _ (some complaint), complaint?_eq_some_iff, readOr_eq_error_iff]
      constructor
      · rintro (⟨hsetting, value, hgiven, hvalue⟩ | ⟨-, value, -, hvalue⟩ |
          ⟨hsetting, value, hgiven, hvalue⟩ | ⟨hsetting, value, hgiven, hvalue⟩ |
          ⟨hsetting, value, hgiven, hvalue⟩)
        · exact ⟨_, value, hsetting, hgiven, .appName hvalue⟩
        · cases hvalue
        · exact ⟨_, value, hsetting, hgiven, .databaseDsn hvalue⟩
        · exact ⟨_, value, hsetting, hgiven, .databaseEcho hvalue⟩
        · exact ⟨_, value, hsetting, hgiven, .maxRuleDepth hvalue⟩
      · rintro ⟨setting, value, hsetting, hgiven, hrefuses⟩
        cases hrefuses with
        | appName hvalue => exact .inl ⟨hsetting, value, hgiven, hvalue⟩
        | databaseDsn hvalue => exact .inr (.inr (.inl ⟨hsetting, value, hgiven, hvalue⟩))
        | databaseEcho hvalue =>
          exact .inr (.inr (.inr (.inl ⟨hsetting, value, hgiven, hvalue⟩)))
        | maxRuleDepth hvalue =>
          exact .inr (.inr (.inr (.inr ⟨hsetting, value, hgiven, hvalue⟩)))

/-- **The settings that are read** are valid. If none are, the complaint is about the database as a
whole, or the complaints are about just those settings that were given with a value that is
refused. -/
theorem read_spec (directory : String) (environment : List (String × String)) (direct : Members) :
    (∀ settings, read directory environment direct = .ok settings → settings.IsValid) ∧
    ∀ complaints, read directory environment direct = .error complaints →
      complaints = [⟨none, .invalid⟩] ∨
      complaints ≠ [] ∧ ∀ complaint, complaint ∈ complaints ↔ ∃ setting value,
        complaint.setting = some setting ∧ given? environment direct setting = some value ∧
        Refuses setting value complaint.problem :=
  ⟨fun _ => isValid_of_read, fun _ => complaints_of_read⟩

/-- **Nothing needs to be given.** -/
theorem read_nothing (directory : String) :
    read directory [] [] = .ok { databaseDsn := defaultDsn directory } := by
  obtain ⟨dsn, hdsn⟩ := exists_read_defaultDsn directory
  have hcompleted : completed directory { databaseDsn := "" } =
      .ok { databaseDsn := defaultDsn directory } := by
    have hempty : ("" : String).isEmpty = true := rfl
    simp only [completed, hempty, if_true, hdsn]
  exact hcompleted

end Settings

end Clearance
