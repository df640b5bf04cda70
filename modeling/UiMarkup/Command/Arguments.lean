import UiMarkup.Command.Check

/-!
What a command line asks for. Options may stand before and after the arguments of a command; after
two hyphens on their own all is an argument.
-/

namespace UiMarkup.Command

inductive Request
  | check (options : CheckOptions)
  | inspect (target : String) (custom : List String)
  | themes (target : String)
  | widgets
  | expression (source : String)
  | version

/-- Whether an option stands alone or has a value. -/
inductive OptionShape
  | flag | valued
  deriving DecidableEq, Repr

/-- The options of a command line in their order, and what else there is. -/
structure Scanned where
  options : List (String × String) := []
  arguments : List String := []

namespace Scanned

def withOption (name value : String) (s : Scanned) : Scanned :=
  { s with options := (name, value) :: s.options }

def withArgument (text : String) (s : Scanned) : Scanned :=
  { s with arguments := text :: s.arguments }

def has (s : Scanned) (name : String) : Bool := s.options.any fun o => o.1 = name

/-- All values of an option. -/
def values (s : Scanned) (name : String) : List String :=
  (s.options.filter fun o => o.1 = name).map Prod.snd

/-- Which of two opposite flags comes last. -/
def switch? (s : Scanned) (on off : String) : Option Bool :=
  (s.options.reverse.find? fun o => o.1 = on || o.1 = off).map fun o => o.1 = on

end Scanned

def isOption (text : String) : Bool := text.toList.head? = some '-' && 1 < text.length

/-- The name of an option and the value behind an equals sign. -/
def splitOption (text : String) : String × Option String :=
  match Text.cut? '=' text.toList with
  | some (name, value) => (String.ofList name, some (String.ofList value))
  | none => (text, none)

/-- The options and arguments of a command. -/
def scan (shape? : String → Option OptionShape) : List String → Option Scanned
  | [] => some {}
  | text :: rest =>
    if text = "--" then some { arguments := rest }
    else if !isOption text then (scan shape? rest).map (Scanned.withArgument text)
    else
      let (name, value) := splitOption text
      match shape? name, value, rest with
      | some .flag, none, rest => (scan shape? rest).map (Scanned.withOption name "")
      | some .valued, some value, rest => (scan shape? rest).map (Scanned.withOption name value)
      | some .valued, none, value :: rest => (scan shape? rest).map (Scanned.withOption name value)
      | _, _, _ => none

/-- The shape of an option, by lists of flags and of options with a value. -/
def shapeIn (flags valued : List String) (name : String) : Option OptionShape :=
  if flags.contains name then some .flag else if valued.contains name then some .valued else none

/-! ### Commands -/

def customOption : String := "--custom-widget"

def settingsOption : String := "--config"

def strictOption : String := "--strict"

def looseOption : String := "--no-strict"

def declarationOption : String := "--require-xml-declaration"

def noDeclarationOption : String := "--no-require-xml-declaration"

def jsonOption : String := "--json-output"

def only? {α : Type} : List α → Option α
  | [a] => some a
  | _ => none

def checkRequest? (texts : List String) : Option Request := do
  let flags := [strictOption, looseOption, declarationOption, noDeclarationOption, jsonOption]
  let s ← scan (shapeIn flags [settingsOption, customOption]) texts
  return .check {
    target := ← if s.arguments.isEmpty then some Path.currentPart else only? s.arguments
    settings := ((s.values settingsOption).getLast?).map Path.ofText
    overrides := {
      strict := s.switch? strictOption looseOption
      requireDeclaration := s.switch? declarationOption noDeclarationOption
      custom := s.values customOption }
    asJson := s.has jsonOption }

def inspectRequest? (texts : List String) : Option Request := do
  let s ← scan (shapeIn [] [customOption]) texts
  return .inspect (← only? s.arguments) (s.values customOption)

def themesRequest? (texts : List String) : Option Request := do
  let s ← scan (shapeIn [] []) texts
  return .themes (← only? s.arguments)

def widgetsRequest? (texts : List String) : Option Request := do
  let s ← scan (shapeIn [] []) texts
  if s.arguments.isEmpty then some .widgets else none

def expressionRequest? (texts : List String) : Option Request := do
  let s ← scan (shapeIn [] []) texts
  return .expression (← only? s.arguments)

/-- What the name of a command and its options and arguments ask for. -/
def commandRequest? : List String → Option Request
  | "check" :: texts => checkRequest? texts
  | "inspect" :: texts => inspectRequest? texts
  | "themes" :: texts => themesRequest? texts
  | "widgets" :: texts => widgetsRequest? texts
  | "expr" :: texts => expressionRequest? texts
  | _ => none

def versionOption : String := "--version"

def verboseOption : String := "--verbose"

/-- Options before the command that ask for more log lines. -/
def isVerbose (text : String) : Bool :=
  text = verboseOption ||
    match text.toList with
    | '-' :: 'v' :: more => more.all (· == 'v')
    | _ => false

/-- The options before the command, and what follows them. -/
def skipOptions? : List String → Option (List String × List String)
  | [] => some ([], [])
  | text :: rest =>
    if text = "--" then some ([], rest)
    else if text = versionOption || isVerbose text then
      (skipOptions? rest).map fun (options, rest) => (text :: options, rest)
    else if isOption text then none
    else some ([], text :: rest)

/-- What a command line asks for, if it asks for something. -/
def request? (texts : List String) : Option Request := do
  let (options, rest) ← skipOptions? texts
  if options.contains versionOption then some .version else commandRequest? rest

namespace Request

/-- A command needs its target: a check that something is there, the others that a file is. -/
def isMet (files : Files) : Request → Bool
  | .check options => (files.kind? options.target).isSome
  | .inspect target _ | .themes target => files.kind? target = some .file
  | .widgets | .expression _ | .version => true

/-- A target and the settings files that count for it. -/
def placesOf (target : String) : List Path :=
  let path := Path.ofText target
  path :: Workspace.fileNames.map path.parent.child

/-- The places at and below which a request looks at files. -/
def places : Request → List Path
  | .check options => placesOf options.target ++ options.settings.toList
  | .inspect target _ | .themes target => placesOf target
  | .widgets | .expression _ | .version => []

end Request

end UiMarkup.Command
