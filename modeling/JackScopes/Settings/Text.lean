import JackScopes.Settings.Basic
import JackScopes.Text.Quoted

/-!
# Settings as text

The settings in force, as the log shows them: one field an indented line.
-/

namespace JackScopes

def UnknownNames.label : UnknownNames → String
  | aliasField => "AliasField"
  | reject => "Reject"

def Settings.text (settings : Settings) : String :=
  "Config \x7b\n    unknown_names: " ++ settings.unknownNames.label ++ ",\n    log_level: " ++
    Text.quoted settings.logLevel ++ ",\n\x7d"

end JackScopes
