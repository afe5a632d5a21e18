import MessageCatalog.Config.Setting
import MessageCatalog.Files.Tree
import MessageCatalog.Json.Writer
import MessageCatalog.Markup.Minify
import MessageCatalog.Pattern.Match
import MessageCatalog.Pattern.Reader

/-!
# MessageCatalog.Config.Options -- the options of the operations

Every option has a name and a default. The settings of a configuration are checked name by name in
the order in which they come, completed with the defaults, and then read as options: the types that
the operations work with. Both are kept, since a configuration is shown by its settings.
-/

namespace MessageCatalog.Config

open MessageCatalog.Json MessageCatalog.Files MessageCatalog.Markup MessageCatalog.Pattern

/-! ## Faults -/

/-- What is wrong with a configuration. -/
inductive ConfigError where
  | fileNotFound (file : String)
  | invalidFile (file : String)
  | unknownTables (names : List String)
  | unknownOption (name : String)
  | invalidMinifier (name : String)
  | notMinifier (name : String)
  | noLocales
  | noAttributes
  | invalidPattern (name : String)
  | destinationNotText (operation : String)
  deriving DecidableEq, Repr

/-- The wording of a configuration error. -/
def ConfigError.message : ConfigError → String
  | .fileNotFound file => s!"Config file {file} not found"
  | .invalidFile file => s!"Invalid config file {file}"
  | .unknownTables names => "Unknown config tables: " ++ String.intercalate ", " names
  | .unknownOption name => s!"Unknown option '{name}'"
  | .invalidMinifier name => s!"Invalid {name} options"
  | .notMinifier name => s!"Option {name} must be a boolean or a table"
  | .noLocales => "No locales defined"
  | .noAttributes => "No localize attributes defined"
  | .invalidPattern name => s!"Invalid regular expression for {name}"
  | .destinationNotText operation => s!"[{operation}] dest must be a string"

/-- Why a configuration cannot be used. -/
inductive Fault where
  | config (error : ConfigError)
  /-- A value is of a kind that its option cannot take. -/
  | wrongKind
  /-- A value that is no table stands where one has to. -/
  | notTable
  /-- The file cannot be read as a text. -/
  | unreadable (fault : ReadFault)
  deriving DecidableEq, Repr

/-! ## Names and defaults -/

/-- The setting of a list of texts. -/
def Setting.ofTexts (texts : List String) : Setting := .array (texts.map .text)

/-- The setting that turns a minifier on with everything that it does. -/
def fullMinifier : Setting :=
  .table [("remove_comments", .bool true), ("collapse_whitespace", .bool true)]

/-- The options with their defaults. -/
def defaults : Table := [
  ("locales", .ofTexts ["en_US"]),
  ("localize_attributes", .ofTexts ["localize"]),
  ("localize_method_identifiers", .ofTexts ["localize"]),
  ("html_file_pattern", .text "\\.html$"),
  ("script_file_pattern", .text "\\.js$"),
  ("locale_pattern", .text "\\w+(?=/[^/]+$)"),
  ("locale_placeholder", .text "\x7blocale\x7d"),
  ("locale_name", .text "i18n"),
  ("json_flat_format", .bool false),
  ("wrap_static_translations", .bool false),
  ("purge_locales", .bool true),
  ("message_format_locale_file", .null),
  ("message_format_shared_file", .null),
  ("locale_template", .null),
  ("url_pattern", .text "^((ftp|https?)://|mailto:|#|\\\x7b\\w+\\\x7d)"),
  ("htmlmin", fullMinifier),
  ("htmlmin_keys", .null),
  ("json_indent", .int 2),
  ("csv_encapsulator", .text "\""),
  ("csv_delimiter", .text ","),
  ("csv_line_end", .text "\r\n"),
  ("csv_key_label", .text "ID"),
  ("csv_extra_fields", .ofTexts ["files"]),
  ("default_messages_source", .array [])]

/-- The options that are lists. A text stands for a list of one. -/
def listOptions : List String :=
  ["locales", "localize_attributes", "localize_method_identifiers", "csv_extra_fields",
    "default_messages_source"]

/-- The options that are paths. -/
def pathOptions : List String :=
  ["message_format_locale_file", "message_format_shared_file", "locale_template"]

/-- The options that are minifiers. -/
def minifierOptions : List String := ["htmlmin", "htmlmin_keys"]

/-! ## From a configuration to settings -/

/-- The items of a setting that stands for a list. -/
def listOf (setting : Setting) : Except Fault (List Setting) :=
  match setting with
  | .text s => .ok [.text s]
  | _ =>
    match setting.items? with
    | some items => .ok items
    | none => .error .wrongKind

/-- The text of a path setting, seen from a folder. -/
def resolvedPath (base : Path) : Setting → Except Fault String
  | .text path => .ok (base.resolve path)
  | _ => .error .wrongKind

/-- The setting of a minifier: off, on, or its two switches. -/
def minifierSetting (name : String) : Setting → Except Fault Setting
  | .bool false => .ok .null
  | .bool true => .ok fullMinifier
  | .table entries =>
    match fullMinifier with
    | .table switches =>
      if entries.all fun (switch, _) => (switches.lookup switch).isSome then
        .ok (.table (switches.map fun (switch, on) =>
          (switch, (entries.lookup switch).getD on)))
      else .error (.config (.invalidMinifier name))
    | other => .ok other
  | _ => .error (.config (.notMinifier name))

/-- The setting of an option as its configuration gives it, paths seen from a folder. -/
def settingOf (base : Path) (name : String) (value : Setting) : Except Fault Setting := do
  if (defaults.lookup name).isNone then throw (.config (.unknownOption name))
  if listOptions.contains name then
    let items ← listOf value
    if name == "default_messages_source" then
      return .ofTexts (← items.mapM (resolvedPath base))
    return .array items
  if pathOptions.contains name then
    return .text (← resolvedPath base value)
  if minifierOptions.contains name then
    return ← minifierSetting name value
  return value

/-- The settings of a configuration, in order, over the defaults. -/
def settingsOf (base : Path) (entries : Table) : Except Fault Table := do
  let given ← entries.mapM fun (name, value) => do return (name, ← settingOf base name value)
  return given.foldl (fun settings (name, value) => Table.set settings name value) defaults

/-! ## From settings to options -/

/-- A pattern with the text that it was read from. -/
structure WrittenPattern where
  source : String
  pattern : Pattern
  deriving Repr

/-- Whether a written pattern matches somewhere in a text. -/
def WrittenPattern.occursIn (p : WrittenPattern) (text : List Char) : Bool :=
  p.pattern.occursIn text

/-- How tables of messages are written. -/
structure SheetFormat where
  quote : String
  delimiter : String
  lineEnd : String
  keyLabel : String
  extraFields : List String
  deriving DecidableEq, Repr

/-- The options of the operations. -/
structure Options where
  locales : List String
  /-- The attributes that mark what is to be localized; the first marks content too. -/
  attributes : List String
  /-- The functions whose calls mark what is to be localized. -/
  functions : List String
  pageFiles : WrittenPattern
  scriptFiles : WrittenPattern
  localeInPath : WrittenPattern
  allowedLinks : WrittenPattern
  /-- What stands for the locale in a path. -/
  placeholder : String
  /-- The name of the object that modules register on. -/
  objectName : String
  flatStores : Bool
  wrapStatic : Bool
  purge : Bool
  rulesFile : Option String
  runtimeFile : Option String
  templateFile : Option String
  contentMinifier : Option MinifyOptions
  keyMinifier : Option MinifyOptions
  /-- How stores are laid out; absent when the setting is none that can be one. -/
  storeLayout : Option Layout
  sheet : SheetFormat
  seeds : List String
  deriving Repr

/-- The setting of an option. -/
def setting (settings : Table) (name : String) : Setting := (settings.lookup name).getD .null

/-- The setting of an option as a text. -/
def textSetting (settings : Table) (name : String) : String := (setting settings name).shown

/-- The setting of an option as a switch. -/
def switchSetting (settings : Table) (name : String) : Bool := (setting settings name).isTruthy

/-- The setting of an option as texts. -/
def textsSetting (settings : Table) (name : String) : List String :=
  match setting settings name with
  | .array items => items.map Setting.shown
  | _ => []

/-- The setting of an option as a path, if there is one. -/
def pathSetting (settings : Table) (name : String) : Option String :=
  match setting settings name with
  | .text path => some path
  | _ => none

/-- The setting of an option as a minifier, if it is on. -/
def minifierOf (settings : Table) (name : String) : Option MinifyOptions :=
  match setting settings name with
  | .table switches =>
    some ⟨switchSetting switches "remove_comments", switchSetting switches "collapse_whitespace"⟩
  | _ => none

/-- The layout that a setting asks for. -/
def layoutOf : Setting → Option Layout
  | .null => some .line
  | .int count => some (.spaces count)
  | .bool b => some (.spaces (if b then 1 else 0))
  | .text margin => some (.block margin)
  | _ => none

/-- The setting of an option as a pattern. -/
def patternSetting (settings : Table) (name : String) : Except Fault WrittenPattern :=
  match setting settings name with
  | .text source =>
    match Pattern.ofText? source.toList with
    | some pattern => .ok ⟨source, pattern⟩
    | none => .error (.config (.invalidPattern name))
  | _ => .error .wrongKind

/-- Reads the options off complete settings. -/
def Options.ofSettings (settings : Table) : Except Fault Options := do
  let locales := textsSetting settings "locales"
  if locales.isEmpty then throw (.config .noLocales)
  let attributes := textsSetting settings "localize_attributes"
  if attributes.isEmpty then throw (.config .noAttributes)
  let pageFiles ← patternSetting settings "html_file_pattern"
  let scriptFiles ← patternSetting settings "script_file_pattern"
  let localeInPath ← patternSetting settings "locale_pattern"
  let allowedLinks ← patternSetting settings "url_pattern"
  return {
    locales, attributes, pageFiles, scriptFiles, localeInPath, allowedLinks
    functions := textsSetting settings "localize_method_identifiers"
    placeholder := textSetting settings "locale_placeholder"
    objectName := textSetting settings "locale_name"
    flatStores := switchSetting settings "json_flat_format"
    wrapStatic := switchSetting settings "wrap_static_translations"
    purge := switchSetting settings "purge_locales"
    rulesFile := pathSetting settings "message_format_locale_file"
    runtimeFile := pathSetting settings "message_format_shared_file"
    templateFile := pathSetting settings "locale_template"
    contentMinifier := minifierOf settings "htmlmin"
    keyMinifier := minifierOf settings "htmlmin_keys"
    storeLayout := layoutOf (setting settings "json_indent")
    sheet := {
      quote := textSetting settings "csv_encapsulator"
      delimiter := textSetting settings "csv_delimiter"
      lineEnd := textSetting settings "csv_line_end"
      keyLabel := textSetting settings "csv_key_label"
      extraFields := textsSetting settings "csv_extra_fields" }
    seeds := textsSetting settings "default_messages_source" }

/-- Whether a link may stay in a page. -/
def Options.allowsLink (options : Options) (link : List Char) : Bool :=
  options.allowedLinks.occursIn link

/-- Reads options from the entries of a table, paths seen from a folder. -/
def Options.read (base : Path) (entries : Table) : Except Fault Options := do
  Options.ofSettings (← settingsOf base entries)

end MessageCatalog.Config
