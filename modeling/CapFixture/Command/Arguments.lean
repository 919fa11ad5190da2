import CapFixture.Command.Outcome
import CapFixture.Command.Request

/-!
# Arguments

The arguments of a command are options with a value, `--name value` or `--name=value`, flags
`--name`, and positional arguments. After a lone `--` every argument is positional.

## Main definitions

- `Setting`, `settings?` — what the arguments set
- `readArguments` — the request that the arguments make
-/

namespace CapFixture.Command

/-- What an option is followed by. -/
inductive Shape where
  | flag
  | valued
  deriving DecidableEq, Repr

inductive Setting where
  | option (name value : String)
  | flag (name : String)
  | positional (value : String)
  deriving DecidableEq, Repr

/-- Whether an argument cannot be a value of its own, because it looks like an option. -/
def looksLikeOption (arg : String) : Bool := arg.startsWith "-" && arg != "-"

/-- The name of a long option, and the value after the equals sign. -/
def nameAndValue (arg : String) : String × Option String :=
  let chars := arg.toList.drop 2
  let name := String.ofList (chars.takeWhile (· != '='))
  match chars.dropWhile (· != '=') with
  | [] => (name, none)
  | _ :: value => (name, some (.ofList value))

/-- The settings that the arguments make, if each of them has its shape. -/
def settings? (shape : String → Option Shape) : List String → Option (List Setting)
  | [] => some []
  | arg :: rest =>
    if arg = "--" then some (rest.map .positional)
    else if arg.startsWith "--" then
      match nameAndValue arg with
      | (name, some value) =>
        if shape name = some .valued then (settings? shape rest).map (.option name value :: ·)
        else none
      | (name, none) =>
        match shape name, rest with
        | some .flag, rest => (settings? shape rest).map (.flag name :: ·)
        | some .valued, value :: rest =>
          if looksLikeOption value then none
          else (settings? shape rest).map (.option name value :: ·)
        | _, _ => none
    else if looksLikeOption arg then none
    else (settings? shape rest).map (.positional arg :: ·)

namespace Setting

/-- The name of an option or a flag. -/
def name? : Setting → Option String
  | option name _ => some name
  | flag name => some name
  | positional _ => none

end Setting

/-- Whether no option is set twice. -/
def areDistinct (settings : List Setting) : Bool :=
  decide (settings.filterMap Setting.name?).Nodup

/-- The value of an option. -/
def valueOf? (name : String) (settings : List Setting) : Option String :=
  settings.findSome? fun
    | .option other value => if other = name then some value else none
    | _ => none

def positionals (settings : List Setting) : List String :=
  settings.filterMap fun
    | .positional value => some value
    | _ => none

/-- The options that say how much is logged. -/
def logOption : String := "log-level"

private def layoutsShape : String → Option Shape
  | "variant" => some .valued
  | "variant-file" => some .valued
  | "ron" => some .flag
  | name => if name = logOption then some .valued else none

private def testsShape : String → Option Shape
  | "variant" => some .valued
  | "variant-file" => some .valued
  | "out-dir" => some .valued
  | name => if name = logOption then some .valued else none

private def forwardersShape : String → Option Shape
  | "out" => some .valued
  | "table" => some .valued
  | name => if name = logOption then some .valued else none

/-- A path, which has to have some text, if the option is set. -/
private def path? (name : String) (settings : List Setting) : Option (Option String) :=
  match valueOf? name settings with
  | none => some none
  | some value => if value.isEmpty then none else some (some value)

private def variantChoice? (settings : List Setting) : Option VariantChoice := do
  let builtin ← Builtin.ofName? ((valueOf? "variant" settings).getD "filc")
  return ⟨builtin, ← path? "variant-file" settings⟩

/-- The request of a task with its arguments. -/
def ofTask? (task : String) (args : List String) : Option Request :=
  match task with
  | "layouts" => do
    let settings ← settings? layoutsShape args
    let choice ← variantChoice? settings
    if areDistinct settings ∧ positionals settings = [] then
      return .layouts choice (settings.contains (.flag "ron"))
    else none
  | "tests" => do
    let settings ← settings? testsShape args
    let choice ← variantChoice? settings
    let directory ← ← path? "out-dir" settings
    if areDistinct settings ∧ positionals settings = [] then return .tests choice directory
    else none
  | "forwarders" => do
    let settings ← settings? forwardersShape args
    let output ← ← path? "out" settings
    let table ← path? "table" settings
    match positionals settings with
    | [kind] =>
      if areDistinct settings then return .forwarders (← ForwarderKind.ofName? kind) output table
      else none
    | _ => none
  | _ => none

/-- What the program says about itself. -/
def versionText : String := "combostorm 0.1.0\n"

def usage : String :=
  "usage: combostorm [--log-level LEVEL] (layouts | tests | forwarders) [OPTIONS]\n"

/-- The arguments are refused. -/
def Outcome.refusal : Outcome := ⟨2, "", usage⟩

/-- The request of all arguments. Before the task there may be the log option, once, and a question
for the version is answered as soon as it is seen. -/
def requestOf (logSet : Bool) : List String → Except Outcome Request
  | [] => .error .refusal
  | arg :: rest =>
    if arg = "--version" || (arg.startsWith "-V") then .error (.success versionText)
    else if looksLikeOption arg then
      match nameAndValue arg, rest with
      | (name, some _), rest =>
        if arg.startsWith "--" ∧ name = logOption ∧ !logSet then requestOf true rest
        else .error .refusal
      | (name, none), value :: rest =>
        if arg.startsWith "--" ∧ name = logOption ∧ !logSet ∧ !looksLikeOption value then
          requestOf true rest
        else .error .refusal
      | _, [] => .error .refusal
    else
      match ofTask? arg rest with
      | some request => .ok request
      | none => .error .refusal

/-- The request that the arguments make, or the answer to arguments that make none. -/
def readArguments (args : List String) : Except Outcome Request := requestOf false args

end CapFixture.Command
