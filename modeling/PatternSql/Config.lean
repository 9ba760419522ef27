import PatternSql.Sql.Layout
import PatternSql.Text.Blank

/-!
# Configuration

How statements are read and commands are written: the name of the dialect, whether lines are broken,
and whether all names are quoted. A configuration may be taken from named settings of the
environment.
-/

namespace PatternSql

open Text Sql

/-- How statements are read and commands are written: `TranslatorConfig`. -/
structure Config where
  /-- The name of the dialect, which need not exist; the generic one if none is given. -/
  dialect : Option String := none
  /-- Whether lines are broken. -/
  pretty : Bool := false
  /-- Whether all names are quoted. -/
  identify : Bool := false
  deriving DecidableEq, Repr

/-- Named settings. -/
abbrev Settings := List (String × String)

namespace Config

/-- The setting for the dialect. -/
def dialectSetting : String := "CYPHER2SQL_DIALECT"

/-- The setting for line breaks. -/
def prettySetting : String := "CYPHER2SQL_PRETTY"

/-- The setting for quotes around all names. -/
def identifySetting : String := "CYPHER2SQL_IDENTIFY"

/-- The words that switch a setting on, in any case and with blanks around them: `_TRUE_VALUES`. -/
def affirmations : List String := ["1", "true", "yes", "on"]

/-- Whether the text of a setting switches it on. -/
def affirms (text : String) : Bool :=
  affirmations.contains (String.ofList ((trim text.toList).map Char.toLower))

/-- The configuration that settings describe; an empty name of a dialect is none. Model of
    `TranslatorConfig.from_env`. -/
def ofSettings (settings : Settings) : Config where
  dialect := (settings.lookup dialectSetting).filter (!·.isEmpty)
  pretty := (settings.lookup prettySetting).any affirms
  identify := (settings.lookup identifySetting).any affirms

/-- The layout of what is written, if the dialect exists. -/
def layout (config : Config) : Except Failure Layout :=
  (Dialect.named config.dialect).map fun d => ⟨d, config.pretty, config.identify⟩

/-! ## Lemmas -/

@[simp] theorem layout_default : layout {} = .ok .plain := rfl

end Config

end PatternSql
