import Estate.Settings
import Estate.Text.Quoted

namespace Estate.Settings

open Text.Quoted (encode)

def describeEngine : EngineName → String
  | .memory => "Memory"
  | .external name => "External \x7b name: " ++ encode name ++ " \x7d"

def describe (settings : Settings) : String :=
  let properties :=
    settings.properties.entries.map fun (key, text) => encode key ++ ": " ++ encode text
  "Configuration \x7b result_filter: " ++ (if settings.resultFilter.isSome then "true" else "false")
    ++ ", backend: " ++ describeEngine settings.engine
    ++ ", properties: \x7b" ++ ", ".intercalate properties ++ "\x7d, .. \x7d"

end Estate.Settings
