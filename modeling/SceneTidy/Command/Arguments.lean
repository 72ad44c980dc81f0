import SceneTidy.Command.Path
import SceneTidy.Numeric.Literal
import SceneTidy.Plan

/-!
# Command-line arguments

The arguments are one input and options.  A long option may be cut short as far as it stays unique
and may have its value after an equals sign; short options may stand together, and one that takes a
value may have it right behind.  After two hyphens everything is a value, and so is a negative
number.

Two hyphens that are joined to an option as its value mark the end of the options there too, so the
option is given without a value.  That is no misuse; a run that comes to need the value breaks off.
-/

namespace SceneTidy.Command

/-- The options. -/
inductive Flag
  | help
  | output
  | preset
  | indent
  | excludeId
  | keepGroupId
  | keepLineSets
  | respectWinding
  | reportSizes
  | reportGroups
  | logFile
  | verbose
  deriving DecidableEq, Repr

namespace Flag

/-- All options. -/
def all : List Flag :=
  [help, output, preset, indent, excludeId, keepGroupId, keepLineSets, respectWinding, reportSizes,
    reportGroups, logFile, verbose]

/-- The long name of an option. -/
def longName : Flag → String
  | help => "--help"
  | output => "--output"
  | preset => "--preset"
  | indent => "--indent"
  | excludeId => "--exclude-id"
  | keepGroupId => "--keep-group-id"
  | keepLineSets => "--keep-line-sets"
  | respectWinding => "--respect-winding"
  | reportSizes => "--report-sizes"
  | reportGroups => "--report-groups"
  | logFile => "--log-file"
  | verbose => "--verbose"

/-- The option of a letter. -/
def ofLetter? (c : Char) : Option Flag :=
  if c = 'h' then some help
  else if c = 'o' then some output
  else if c = 'v' then some verbose
  else none

/-- Whether the option takes a value. -/
def takesValue : Flag → Bool
  | help | keepLineSets | respectWinding | reportGroups | verbose => false
  | output | preset | indent | excludeId | keepGroupId | reportSizes | logFile => true

end Flag

/-- Why a run ends at its arguments: they are wrong, or ask for help. -/
inductive Stop
  | misused
  | helped
  deriving DecidableEq, Repr

/-- What an argument is. -/
inductive Argument
  | value (s : String)
  | ends
  | long (f : Flag) (given : Option (List Char))
  | short (f : Flag) (tail : Option (List Char))
  | unknown
  deriving DecidableEq, Repr

/-- Whether a text looks like a negative number. -/
def isNegativeNumber (s : List Char) : Bool :=
  let isDigit (c : Char) : Bool := (Text.digitValue? c).isSome
  let body := if s.getLast? = some '\n' then s.dropLast else s
  match body with
  | '-' :: r =>
    match r.dropWhile isDigit with
    | [] => !r.isEmpty
    | '.' :: fraction => !fraction.isEmpty && fraction.all isDigit
    | _ => false
  | _ => false

/-- A text cut at its first equals sign, if it has one. -/
def cutAtEquals (s : List Char) : List Char × Option (List Char) :=
  match s.span (· ≠ '=') with
  | (before, _ :: after) => (before, some after)
  | (before, []) => (before, none)

/-- What an argument is that is neither a number nor an option. -/
def plainArgument (s : List Char) : Argument :=
  if isNegativeNumber s ∨ ' ' ∈ s then .value (String.ofList s) else .unknown

/-- A long option: its full name, or as much of it as fits no other. -/
def longArgument (s : List Char) : Except Stop Argument :=
  let (name, given) := cutAtEquals s
  match Flag.all.find? fun f => f.longName.toList = name with
  | some f => .ok (.long f given)
  | none =>
    match Flag.all.filter fun f => name.isPrefixOf f.longName.toList with
    | [] => .ok (plainArgument s)
    | [f] => .ok (.long f given)
    | _ => .error .misused

/-- What an argument before the two hyphens is. -/
def argument (s : String) : Except Stop Argument :=
  match s.toList with
  | '-' :: '-' :: r => if r.isEmpty then .ok .ends else longArgument ('-' :: '-' :: r)
  | '-' :: c :: r =>
    match Flag.ofLetter? c with
    | some f =>
      match r with
      | [] => .ok (.short f none)
      | '=' :: r => .ok (.short f (some r))
      | r => .ok (.short f (some r))
    | none => .ok (plainArgument ('-' :: c :: r))
  | _ => .ok (.value s)

/-- What each argument is. -/
def arguments : List String → Except Stop (List Argument)
  | [] => .ok []
  | s :: rest => do
    match ← argument s with
    | .ends => return .ends :: rest.map .value
    | a => return a :: (← arguments rest)

/-- An option with its value.  Options that take none have none, and so has one whose value is two
hyphens. -/
abbrev Choice := Flag × Option String

/-- The value that is joined to an option. -/
def joinedValue (s : List Char) : Option String :=
  if s = ['-', '-'] then none else some (String.ofList s)

/-- What an argument with options asks for: options with their values, and an option whose value
comes next. -/
structure Asked where
  done : List Choice
  pending : Option Flag

/-- The options of letters that stand together: the text behind a letter is its value, or more
letters.  A letter that is no option is refused, and so is an empty text behind a letter that takes
no value. -/
def letters (f : Flag) (tail : List Char) : Option Asked :=
  if f.takesValue then some ⟨[(f, joinedValue tail)], none⟩
  else
    match tail with
    | [] => none
    | c :: r =>
      match Flag.ofLetter? c with
      | none => none
      | some g =>
        if r.isEmpty then some ⟨[(f, none)], some g⟩
        else (letters g r).map fun a => { a with done := (f, none) :: a.done }
termination_by tail.length

/-- The settings of a run.  A setting is none where its option was given without a value. -/
structure Settings where
  input : Path
  output : Option Path
  preset : Option String
  indent : Option Int
  excluded : List (Option Int)
  keepGroup : Option (Option Int)
  keepLineSets : Bool
  respectWinding : Bool
  reportSizes : Option Int
  reportGroups : Bool
  logFile : Option Path
  verbose : Bool

namespace Settings

/-- The settings when no option is given. -/
def usual : Settings where
  input := ⟨"", []⟩
  output := some ⟨"", ["output.wrl"]⟩
  preset := some "unify"
  indent := some 0
  excluded := []
  keepGroup := none
  keepLineSets := false
  respectWinding := false
  reportSizes := some 0
  reportGroups := false
  logFile := none
  verbose := false

/-- The integer of a value. -/
def integer (s : String) : Except Stop Int :=
  match readInteger? s.toList with
  | some n => .ok n
  | none => .error .misused

/-- Follow one option. -/
def follow (st : Settings) : Choice → Except Stop Settings
  | (.help, _) => .error .helped
  | (.output, v) => .ok { st with output := v.map .ofString }
  | (.preset, v) =>
    if v.all fun name => (Preset.ofName? name).isSome then .ok { st with preset := v }
    else .error .misused
  | (.indent, v) => do return { st with indent := ← v.mapM integer }
  | (.excludeId, v) => do return { st with excluded := st.excluded ++ [← v.mapM integer] }
  | (.keepGroupId, v) => do return { st with keepGroup := some (← v.mapM integer) }
  | (.keepLineSets, _) => .ok { st with keepLineSets := true }
  | (.respectWinding, _) => .ok { st with respectWinding := true }
  | (.reportSizes, v) => do return { st with reportSizes := ← v.mapM integer }
  | (.reportGroups, _) => .ok { st with reportGroups := true }
  | (.logFile, v) => .ok { st with logFile := v.map .ofString }
  | (.verbose, _) => .ok { st with verbose := true }

/-- Follow options in order. -/
def followAll (st : Settings) (choices : List Choice) : Except Stop Settings :=
  choices.foldlM follow st

end Settings

/-- Settings that are being made: the input once it was found, and whether arguments are left
over. -/
structure Progress where
  settings : Settings
  hasInput : Bool
  stray : Bool

namespace Progress

/-- Take a value that belongs to no option: the first is the input. -/
def take (p : Progress) (s : String) : Progress :=
  if p.hasInput then { p with stray := true }
  else { p with settings := { p.settings with input := .ofString s }, hasInput := true }

/-- Follow options in order. -/
def follow (p : Progress) (choices : List Choice) : Except Stop Progress := do
  return { p with settings := ← p.settings.followAll choices }

end Progress

/-- What an argument with options asks for; none if it has a value it cannot take. -/
def asked? : Argument → Option Asked
  | .long f none => some ⟨[], some f⟩
  | .long f (some s) => if f.takesValue then some ⟨[(f, joinedValue s)], none⟩ else none
  | .short f none => some ⟨[], some f⟩
  | .short f (some tail) => letters f tail
  | .unknown | .value _ | .ends => none

/-- Follow an argument with options, given what comes after it; the result says whether the next
argument was used as a value. -/
def followOptions (p : Progress) (a : Argument) (next : Option Argument) :
    Except Stop (Progress × Bool) :=
  match asked? a with
  | none => .error .misused
  | some asked =>
    match asked.pending with
    | none => (p.follow asked.done).map (·, false)
    | some f =>
      if f.takesValue then
        match next with
        | some (.value s) => (p.follow (asked.done ++ [(f, some s)])).map (·, true)
        | _ => .error .misused
      else (p.follow (asked.done ++ [(f, none)])).map (·, false)

/-- Follow an argument that is no value; one that is no option either is left over. -/
def followArgument (p : Progress) (a : Argument) (next : Option Argument) :
    Except Stop (Progress × Bool) :=
  match a with
  | .unknown => .ok ({ p with stray := true }, false)
  | a => followOptions p a next

/-- Go through the arguments.  The two hyphens are dropped next to the input. -/
def readArguments (p : Progress) : List Argument → Except Stop Progress
  | [] => .ok p
  | .value s :: .ends :: rest =>
    if p.hasInput then readArguments { p with stray := true } rest else readArguments (p.take s) rest
  | .value s :: rest => readArguments (p.take s) rest
  | .ends :: .value s :: rest =>
    if p.hasInput then readArguments { p with stray := true } rest else readArguments (p.take s) rest
  | .ends :: rest => readArguments { p with stray := true } rest
  | [a] => do return (← followArgument p a none).1
  | a :: b :: rest =>
    match followArgument p a (some b) with
    | .error e => .error e
    | .ok (p, true) => readArguments p rest
    | .ok (p, false) => readArguments p (b :: rest)

/-- The settings that arguments ask for. -/
def Settings.ofArguments (args : List String) : Except Stop Settings := do
  let p ← readArguments ⟨.usual, false, false⟩ (← arguments args)
  if p.hasInput && !p.stray then return p.settings else .error .misused

end SceneTidy.Command
