import FluentBuilder.Blueprint

/-!
# Blueprints as JSON — the form in which they are shown

The text has one key or element on a line, two blanks for each level and no line for an empty
list. In strings, quotes, backslashes and control characters are escaped.
-/

namespace FluentBuilder.Json

/-- A digit of the hexadecimal system. -/
def hexDigit (n : Nat) : Char := if n < 10 then Char.ofNat (0x30 + n) else Char.ofNat (0x57 + n)

/-- The characters that stand for one character of a string. -/
def escapeChar (c : Char) : List Char :=
  if c == '"' then ['\\', '"']
  else if c == '\\' then ['\\', '\\']
  else if c == '\n' then ['\\', 'n']
  else if c == '\r' then ['\\', 'r']
  else if c == '\t' then ['\\', 't']
  else if c == '\x08' then ['\\', 'b']
  else if c == '\x0c' then ['\\', 'f']
  else if c.toNat < 0x20 then
    ['\\', 'u', '0', '0', hexDigit (c.toNat / 16), hexDigit (c.toNat % 16)]
  else [c]

/-- A string with its quotes. -/
def quoted (text : String) : String :=
  String.ofList ('"' :: text.toList.flatMap escapeChar ++ ['"'])

/-- The lines of a member. -/
def memberLines (member : Member) : List String :=
  let name := quoted member.name
  let signature := quoted member.signature
  ["    \x7b", s!"      \"name\": {name},", s!"      \"type_signature\": {signature}", "    \x7d"]

/-- The lines of members, with a comma behind each but the last one. -/
def membersLines : List Member → List String
  | [] => []
  | [member] => memberLines member
  | member :: rest =>
    let lines := memberLines member
    lines.dropLast ++ ["    \x7d,"] ++ membersLines rest

/-- The lines of a blueprint. -/
def lines (blueprint : Blueprint) : List String :=
  let package := quoted blueprint.package
  let target := quoted blueprint.target
  let members :=
    if blueprint.members.isEmpty then ["  \"fields\": []"]
    else ["  \"fields\": ["] ++ membersLines blueprint.members ++ ["  ]"]
  ["\x7b", s!"  \"module_name\": {package},", s!"  \"target_name\": {target},"] ++ members ++
    ["\x7d"]

end FluentBuilder.Json

namespace FluentBuilder

/-- A blueprint as JSON. -/
def Blueprint.toJson (blueprint : Blueprint) : String :=
  "\n".intercalate (Json.lines blueprint)

end FluentBuilder
