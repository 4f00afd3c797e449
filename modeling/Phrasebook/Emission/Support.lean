/-!
# Support code

The part of a generated module that is the same in every one: the errors of a call by name, and the functions that
read arguments and show values.
-/

namespace Phrasebook

def supportLines : List String :=
  ["/// Fatal errors of the dynamic lookup.",
    "#[derive(Debug, Clone, PartialEq, Eq)]",
    "pub enum LookupError \x7b",
    "    KeyNotFound \x7b key: String \x7d,",
    "    ArgumentType \x7b",
    "        key: String,",
    "        parameter: String,",
    "        expected: &'static str,",
    "    \x7d,",
    "\x7d",
    "",
    "impl std::fmt::Display for LookupError \x7b",
    "    fn fmt(&self, f: &mut std::fmt::Formatter<'_>) -> std::fmt::Result \x7b",
    "        match self \x7b",
    "            LookupError::KeyNotFound \x7b key \x7d => write!(f, \"localization '\x7b\x7d' not found\", key),",
    "            LookupError::ArgumentType \x7b",
    "                key,",
    "                parameter,",
    "                expected,",
    "            \x7d => write!(",
    "                f,",
    "                \"argument '\x7b\x7d' of '\x7b\x7d' expects \x7b\x7d\",",
    "                parameter, key, expected",
    "            ),",
    "        \x7d",
    "    \x7d",
    "\x7d",
    "",
    "impl std::error::Error for LookupError \x7b\x7d",
    "",
    "pub type Args = serde_json::Map<String, serde_json::Value>;",
    "",
    "fn mismatch(key: &str, parameter: &str, expected: &'static str) -> LookupError \x7b",
    "    LookupError::ArgumentType \x7b",
    "        key: key.to_string(),",
    "        parameter: parameter.to_string(),",
    "        expected,",
    "    \x7d",
    "\x7d",
    "",
    "fn typed<'a, T>(",
    "    args: &'a Args,",
    "    key: &str,",
    "    parameter: &str,",
    "    expected: &'static str,",
    "    read: fn(&'a serde_json::Value) -> Option<T>,",
    ") -> Result<T, LookupError> \x7b",
    "    args.get(parameter)",
    "        .and_then(read)",
    "        .ok_or_else(|| mismatch(key, parameter, expected))",
    "\x7d",
    "",
    "fn nullable<'a, T>(",
    "    args: &'a Args,",
    "    key: &str,",
    "    parameter: &str,",
    "    expected: &'static str,",
    "    read: fn(&'a serde_json::Value) -> Option<T>,",
    ") -> Result<Option<T>, LookupError> \x7b",
    "    match args.get(parameter) \x7b",
    "        None | Some(serde_json::Value::Null) => Ok(None),",
    "        Some(value) => read(value)",
    "            .map(Some)",
    "            .ok_or_else(|| mismatch(key, parameter, expected)),",
    "    \x7d",
    "\x7d",
    "",
    "fn integer(value: &serde_json::Value) -> Option<i64> \x7b",
    "    value.as_i64()",
    "\x7d",
    "",
    "fn float(value: &serde_json::Value) -> Option<f64> \x7b",
    "    value.as_f64()",
    "\x7d",
    "",
    "fn boolean(value: &serde_json::Value) -> Option<bool> \x7b",
    "    value.as_bool()",
    "\x7d",
    "",
    "fn text(value: &serde_json::Value) -> Option<&str> \x7b",
    "    value.as_str()",
    "\x7d",
    "",
    "fn any(value: &serde_json::Value) -> Option<&serde_json::Value> \x7b",
    "    (!value.is_null()).then_some(value)",
    "\x7d",
    "",
    "fn show_value(value: &serde_json::Value) -> String \x7b",
    "    match value \x7b",
    "        serde_json::Value::String(s) => s.clone(),",
    "        other => other.to_string(),",
    "    \x7d",
    "\x7d",
    "",
    "fn show_opt<T: std::fmt::Display>(value: Option<T>) -> String \x7b",
    "    value.map_or_else(|| \"null\".to_string(), |v| v.to_string())",
    "\x7d",
    "",
    "fn show_opt_value(value: Option<&serde_json::Value>) -> String \x7b",
    "    value.map_or_else(|| \"null\".to_string(), show_value)",
    "\x7d",
    "",
    "fn show_property<T: std::fmt::Display>(value: &Option<T>, placeholder: &str) -> String \x7b",
    "    match value \x7b",
    "        Some(v) => v.to_string(),",
    "        None => placeholder.to_string(),",
    "    \x7d",
    "\x7d",
    "",
    "fn show_property_value(value: &Option<serde_json::Value>, placeholder: &str) -> String \x7b",
    "    match value \x7b",
    "        Some(v) => show_value(v),",
    "        None => placeholder.to_string(),",
    "    \x7d",
    "\x7d"]

end Phrasebook
