/-!
# Problems of settings

A value that cannot be taken for a setting has a **problem**, which is named by a
short word and reported with the setting it belongs to.
-/

namespace Clearance

/-- The **settings**, by the names under which they are given. -/
inductive Setting
  | appName | loggingLevel | databaseDsn | databaseEcho | maxRuleDepth
deriving DecidableEq, Repr

namespace Setting

/-- Every setting, in the order in which problems are reported. -/
def all : List Setting := [.appName, .loggingLevel, .databaseDsn, .databaseEcho, .maxRuleDepth]

/-- The name of a setting. -/
def name : Setting → String
  | appName => "app_name"
  | loggingLevel => "logging_level"
  | databaseDsn => "database_dsn"
  | databaseEcho => "database_echo"
  | maxRuleDepth => "max_rule_depth"

end Setting

namespace Settings

/-- What is wrong with the value of a setting. -/
inductive Problem
  /-- A text is no whole number. -/
  | intParsing
  /-- A whole number has too many digits. -/
  | intParsingSize
  /-- A number is not whole. -/
  | intFromFloat
  /-- A number is infinite. -/
  | finiteNumber
  /-- A value is no number. -/
  | intType
  /-- A number is below the range. -/
  | tooSmall
  /-- A number is above the range. -/
  | tooLarge
  /-- A value is no word for yes or no. -/
  | boolParsing
  /-- A value can be neither yes nor no. -/
  | boolType
  /-- A value is no text. -/
  | stringType
  /-- The settings do not fit together. -/
  | invalid
deriving DecidableEq, Repr

/-- The word for a problem. -/
def Problem.name : Problem → String
  | intParsing => "int_parsing"
  | intParsingSize => "int_parsing_size"
  | intFromFloat => "int_from_float"
  | finiteNumber => "finite_number"
  | intType => "int_type"
  | tooSmall => "greater_than_equal"
  | tooLarge => "less_than_equal"
  | boolParsing => "bool_parsing"
  | boolType => "bool_type"
  | stringType => "string_type"
  | invalid => "value_error"

/-- A **complaint**: a problem and the setting it is about, if it is about one. -/
structure Complaint where
  /-- The setting. -/
  setting : Option Setting
  /-- What is wrong with it. -/
  problem : Problem
deriving DecidableEq, Repr

end Settings

end Clearance
