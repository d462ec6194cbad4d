import Playout.Text.Numeral
import Playout.Text.Split

/-!
# Command lines

What the arguments of the program ask for. Options have long names, some short
ones too, which may stand together; a value follows its option as the next
argument or behind `=`. An option stands once, and after `--` there are none. The
general options may stand before the command or after it.
-/
namespace Playout.CommandLine

/-- What the program is asked to do. -/
inductive Action where
  | serve (host : Option String) (port : Option Nat) (library : Option String)
  | probe (file : String) (asJson : Bool)
  | checkTools
  | validate (file : Option String)
  | version
  deriving DecidableEq, Repr

/-- A command line that is understood. -/
structure Invocation where
  action : Action
  config : Option String
  isVerbose : Bool
  deriving DecidableEq, Repr

/-- Why a command line asks for no action. -/
inductive Stop where
  | usage
  | help
  | version
  deriving DecidableEq, Repr, Inhabited

/-- What an option takes. -/
inductive Takes where
  | nothing
  | text
  | path
  | port
  deriving DecidableEq, Repr

/-- An option of the command line. -/
structure Flag where
  long : String
  short : Option Char
  takes : Takes
  deriving DecidableEq, Repr

/-- The options and the files that may stand at one level. -/
structure Grammar where
  options : List Flag
  files : Nat
  tellsVersion : Bool
  deriving Repr

def configOption : Flag := ⟨"config",some 'c',.path⟩

def verboseOption : Flag := ⟨"verbose",some 'v',.nothing⟩

def Grammar.general : Grammar := ⟨[configOption,verboseOption],0,true⟩

/-- What may stand after a command. That which checks a configuration takes it as a file. -/
def Grammar.ofCommand? (name : List Char) : Option Grammar :=
  match String.ofList name with
  | "start" =>
    some ⟨[⟨"host",none,.text⟩,⟨"port",some 'p',.port⟩,⟨"library",none,.path⟩,configOption,
      verboseOption],0,false⟩
  | "probe" => some ⟨[⟨"json",none,.nothing⟩,configOption,verboseOption],1,false⟩
  | "check-tools" => some ⟨[configOption,verboseOption],0,false⟩
  | "validate" => some ⟨[verboseOption],1,false⟩
  | "version" => some ⟨[configOption,verboseOption],0,false⟩
  | _ => none

/-- What was found at one level. -/
structure Found where
  options : List (String × List Char) := []
  files : List (List Char) := []

namespace Found

def has (f : Found) (name : String) : Bool := f.options.any (·.1 = name)

def value? (f : Found) (name : String) : Option String :=
  (f.options.find? (·.1 = name)).map fun o => String.ofList o.2

def port? (f : Found) : Option Nat := (f.value? "port").bind fun s =>
  (Text.integer? 0 (max16 : Int) s.toList).map Int.toNat

def addFile (f : Found) (g : Grammar) (file : List Char) : Except Stop Found :=
  if f.files.length < g.files && !file.isEmpty then .ok { f with files := f.files ++ [file] }
  else .error .usage

def addOption (f : Found) (o : Flag) (value : List Char) : Except Stop Found :=
  let fits := match o.takes with
    | .nothing | .text => true
    | .path => value ≠ []
    | .port => (Text.integer? 0 (max16 : Int) value).isSome
  if f.has o.long || !fits then .error .usage
  else .ok { f with options := f.options ++ [(o.long,value)] }

end Found

/-- A part of the arguments that says something of its own. -/
inductive Reading where
  | complete (found : Found)
  | needsValue (found : Found) (option : Flag)

def readLong (g : Grammar) (f : Found) (text : List Char) : Except Stop Reading :=
  let (name,attached) := match Text.splitFirst? '=' text with
    | some (name,value) => (String.ofList name,some value)
    | none => (String.ofList text,none)
  match g.options.find? (·.long = name), attached with
  | some o, some value =>
    if o.takes = .nothing then .error .usage else (f.addOption o value).map .complete
  | some o, none =>
    if o.takes = .nothing then (f.addOption o []).map .complete else .ok (.needsValue f o)
  | none, none =>
    if name = "help" then .error .help
    else if name = "version" && g.tellsVersion then .error .version
    else .error .usage
  | none, some _ => .error .usage

def readShort (g : Grammar) (f : Found) : List Char → Except Stop Reading
  | [] => .ok (.complete f)
  | c :: cs =>
    match g.options.find? (·.short = some c) with
    | some o =>
      if o.takes = .nothing then do
        let f ← f.addOption o []
        readShort g f cs
      else
        match cs with
        | [] => .ok (.needsValue f o)
        | '=' :: value => (f.addOption o value).map .complete
        | value => (f.addOption o value).map .complete
    | none =>
      if c = 'h' then .error .help
      else if c = 'V' && g.tellsVersion then .error .version
      else .error .usage

def looksLikeOption (argument : List Char) : Bool :=
  match argument with
  | '-' :: _ :: _ => true
  | _ => false

def readCommand (g : Grammar) (f : Found) : List (List Char) → Except Stop Found
  | [] => .ok f
  | ['-','-'] :: files => files.foldlM (fun f file => f.addFile g file) f
  | argument :: rest =>
    let reading : Except Stop Reading := match argument with
      | '-' :: '-' :: text => readLong g f text
      | '-' :: c :: cs => readShort g f (c :: cs)
      | file => (f.addFile g file).map .complete
    match reading, rest with
    | .error stop, _ => .error stop
    | .ok (.complete f), rest => readCommand g f rest
    | .ok (.needsValue f o), value :: rest =>
      if looksLikeOption value then .error .usage
      else
        match f.addOption o value with
        | .ok f => readCommand g f rest
        | .error stop => .error stop
    | .ok (.needsValue ..), [] => .error .usage

/-- Reads the arguments up to the command, and gives the command with what follows. -/
def readGeneral (f : Found) : List (List Char) → Except Stop (Found × List Char × List (List Char))
  | [] => .error .usage
  | argument :: rest =>
    let reading : Except Stop Reading := match argument with
      | ['-','-'] => .error .usage
      | '-' :: '-' :: text => readLong .general f text
      | '-' :: c :: cs => readShort .general f (c :: cs)
      | _ => .ok (.complete f)
    match reading, rest with
    | .error stop, _ => .error stop
    | .ok (.complete f), rest =>
      if looksLikeOption argument then readGeneral f rest else .ok (f,argument,rest)
    | .ok (.needsValue f o), value :: rest =>
      if looksLikeOption value then .error .usage
      else
        match f.addOption o value with
        | .ok f => readGeneral f rest
        | .error stop => .error stop
    | .ok (.needsValue ..), [] => .error .usage

/-- The action of a command, if nothing that it needs is missing. -/
def actionOf (name : List Char) (f : Found) : Except Stop Action :=
  let file := f.files.head?.map String.ofList
  match String.ofList name, file with
  | "start", _ => .ok (.serve (f.value? "host") f.port? (f.value? "library"))
  | "probe", some file => .ok (.probe file (f.has "json"))
  | "check-tools", _ => .ok .checkTools
  | "validate", _ => .ok (.validate file)
  | "version", _ => .ok .version
  | _, _ => .error .usage

/-- What the arguments ask for. An option after the command counts more than one before it. -/
def Invocation.ofArguments (arguments : List String) : Except Stop Invocation := do
  let (general,name,rest) ← readGeneral {} (arguments.map String.toList)
  if name = "help".toList then throw .help
  match Grammar.ofCommand? name with
  | none => throw .usage
  | some g =>
    let f ← readCommand g {} rest
    let action ← actionOf name f
    let config := match f.value? "config" with
      | some file => some file
      | none => general.value? "config"
    pure ⟨action,config,general.has "verbose" || f.has "verbose"⟩

end Playout.CommandLine
