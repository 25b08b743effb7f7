import Osdns.Framework.Shell
import Osdns.Platform.Text

/-!
# The configuration of openresolv

`parse_resolvconf_config` of `platform/unix/openresolv.rs` reads `/etc/resolvconf.conf`, which
openresolv itself has a shell read, and `config_blocks_direct` decides from it whether the file that
is about to be edited belongs to openresolv.
-/

namespace Osdns

namespace Openresolv

/-! ## Text -/

/-- A carriage return before the end of a line belongs to it. -/
def stripCarriageReturn (line : List Char) : List Char :=
  if line.getLast? = some '\r' then line.dropLast else line

/-- `str::lines`. -/
def lines (text : List Char) : List (List Char) :=
  let pieces := text.splitOn '\n'
  let last := pieces.getLast?.getD []
  pieces.dropLast.map stripCarriageReturn ++ if last = [] then [] else [last]

/-- `str::split_once`. -/
def splitOnce (sep : Char) (text : List Char) : Option (List Char × List Char) :=
  match text.dropWhile (· != sep) with
  | [] => none
  | _ :: rest => some (text.takeWhile (· != sep), rest)

/-- `str::strip_prefix` and `str::strip_suffix` with the same character. -/
def between (quote : Char) : List Char → Option (List Char)
  | [] => none
  | c :: rest => if c = quote ∧ rest.getLast? = some quote then some rest.dropLast else none

/-- The components of a path that name something. -/
def namedPieces (pieces : List (List Char)) : List (List Char) :=
  pieces.filter fun piece => piece ≠ [] ∧ piece ≠ ['.']

/-- `Path::components`; a dot is kept only at the beginning of a relative path. -/
def components (path : List Char) : List (List Char) :=
  let pieces := path.splitOn '/'
  if path.head? = some '/' then ['/'] :: namedPieces pieces
  else (pieces.take 1).filter (· ≠ []) ++ namedPieces (pieces.drop 1)

/-- `Path == Path`. -/
def samePath (path path' : List Char) : Bool := components path == components path'

/-- `absolute_path`. -/
def absolutePath (value : List Char) : Option (List Char) :=
  if value.head? = some '/' then some value else none

/-! ## The parser -/

def resolvConf : List Char := "resolv_conf".toList
def stateDir : List Char := "state_dir".toList
def resolvconf : List Char := "resolvconf".toList
def libc : List Char := "libc".toList
def resolvConfPassthrough : List Char := "resolv_conf_passthrough".toList

/-- `RESOLV_CONF_PATH`. -/
def resolvConfPath : List Char := "/etc/resolv.conf".toList

/-- `STANDARD_STATE_DIRS`. -/
def standardStateDirs : List (List Char) :=
  ["/run/resolvconf".toList, "/var/run/resolvconf".toList]

/-- `safe_literal_value`. -/
def safeLiteralValue (value : List Char) (quoted : Bool) : Option (List Char) :=
  if value.any fun c =>
      (isWhitespace c && !quoted) || "$`\\'\";|&()<>".toList.contains c ||
        (!quoted && (c == '#' || "*?[]\x7b\x7d!~".toList.contains c)) then
    none
  else some value

/-- `parse_literal_value`. -/
def parseLiteralValue (value : List Char) : Option (List Char) :=
  if trim value ≠ value then none
  else
    match between '\'' value with
    | some inner => safeLiteralValue inner true
    | none =>
        match between '"' value with
        | some inner => safeLiteralValue inner true
        | none => safeLiteralValue value false

/-- `parse_literal_assignment`. -/
def parseLiteralAssignment (line : List Char) : Option (List Char × List Char) :=
  match splitOnce '=' line with
  | none => none
  | some (key, value) =>
      if key.isEmpty || trim key ≠ key || trim value ≠ value ||
          !(key.all fun c => c.isAlphanum || c == '_') then
        none
      else (parseLiteralValue value).map fun literal => (key, literal)

/-- `contains_setting_token`. -/
def containsSettingToken (line setting : List Char) : Bool :=
  (line.splitOnP fun c => !(c.isAlphanum || c == '_')).contains setting

/-- The variables of the loop of `parse_resolvconf_config`. -/
structure ParseState where
  configured : Option (List Char)
  configuredStateDir : Bool

/-- The `match` of `parse_resolvconf_config` on the key. -/
def parseSetting (state : ParseState) (key value : List Char) : Option ParseState :=
  if key = resolvConf then
    if state.configured.isSome then none
    else (absolutePath value).map fun candidate => { state with configured := some candidate }
  else if key = stateDir then
    if state.configuredStateDir then none
    else
      (absolutePath value).bind fun dir =>
        if !standardStateDirs.any (samePath · dir) then none
        else some { state with configuredStateDir := true }
  else if (key = resolvconf ∨ key = libc) ∧ value ≠ "YES".toList then none
  else if key = resolvConfPassthrough ∧ value ≠ "NO".toList then none
  else some state

/-- The body of the loop of `parse_resolvconf_config`. -/
def parseLine (state : ParseState) (rawLine : List Char) : Option ParseState :=
  let line := trim rawLine
  if line = [] ∨ line.head? = some '#' then some state
  else
    match parseLiteralAssignment line with
    | none => none
    | some (key, value) =>
        if containsSettingToken line resolvConf && key ≠ resolvConf then none
        else if containsSettingToken line stateDir && key ≠ stateDir then none
        else parseSetting state key value

/-- `parse_resolvconf_config`. -/
def parseResolvconfConfig (config : List Char) : Option (List Char) :=
  ((lines config).foldlM parseLine ⟨none, false⟩).map fun state =>
    state.configured.getD resolvConfPath

/-- `config_blocks_direct`. -/
def configBlocksDirect (file config : List Char) : Bool :=
  match parseResolvconfConfig config with
  | some configured => samePath configured file
  | none => true

/-! ## Lines are trimmed -/

end Openresolv

end Osdns
