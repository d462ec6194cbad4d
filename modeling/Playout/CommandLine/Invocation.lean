import Playout.CommandLine.Arguments
import Playout.CommandLine.Report
import Playout.Config.Reader
import Playout.Tool.Inspector

/-!
# Running the program

What the program prints for its arguments on a host, the code that it ends with
and the error that it reports. What was printed before an error stays printed.
-/
namespace Playout.CommandLine
open Playout.Host

/-- What a run of the program leaves. -/
structure Outcome where
  code : Nat
  output : String
  error : Option String
  deriving DecidableEq, Repr, Inhabited

def Outcome.success (output : String) : Outcome := ⟨0,output,none⟩

def Outcome.failure (output error : String) : Outcome := ⟨1,output,some error⟩

def quoted (s : String) : String := String.ofList (Text.Quoted.encode s.toList)

def loadConfig (h : Host) (file : Option String) : Except Config.Failure Config :=
  let isThere := fun (path : String) => h.files.isThere h.directory path.toList
  let contents := fun (path : String) => (h.files.read h.directory path.toList).toOption
  Config.load (String.ofList h.home) isThere contents file

/-- The tools of a configuration, by their names alone if one of them is nowhere. -/
def toolchain (h : Host) (c : Config) : Tool.Toolchain :=
  match Tool.Toolchain.locate h c.tools.ffmpeg c.tools.ffprobe with
  | .ok tools => tools
  | .error _ => .byName

def locatorOf? (h : Host) (root file : String) : Option Locator := do
  let (root,_) ← (h.files.find h.directory root.toList).toOption
  let (place,_) ← (h.files.find h.directory file.toList).toOption
  let relative ← Text.dropStart? root place
  (Locator.ofPath (Text.joinWith ['/'] relative)).toOption

/-- The report about a file, with the size of the file if it says none; none if the file is not one, if the tool fails
    or if it finds no track. -/
def inspect? (h : Host) (tool file : String) : Option Probe.Container := do
  let content ← (h.files.read h.directory file.toList).toOption
  let c ← (Tool.Inspector.report h tool file).1.toOption
  if c.tracks.isEmpty then none
  else some { c with format := { c.format with size := some (c.format.size.getD content.length) } }

def probe (h : Host) (file : String) (asJson : Bool) (config : Option String) : Outcome :=
  if !h.files.isThere h.directory file.toList then .failure "" ("File does not exist: " ++ quoted file)
  else
    match loadConfig h config with
    | .error e => .failure "" e.message
    | .ok c =>
      match inspect? h (toolchain h c).inspector file with
      | none => .failure "" ("Failed to probe " ++ quoted file)
      | some report =>
        if asJson then .success (streamsText report.streams ++ "\n")
        else .success (unlines (fileLines file report (locatorOf? h c.library.root file)))

def checkTools (h : Host) (config : Option String) : Outcome :=
  let heading := unlines ["Checking external tools...",""]
  match loadConfig h config with
  | .error e => .failure heading e.message
  | .ok c => .success (heading ++ unlines (toolLines ((toolchain h c).check h)))

def validate (h : Host) (file : Option String) : Outcome :=
  match file with
  | none => .success (unlines ("No config file specified, using defaults" :: configLines {}))
  | some name =>
    let heading := unlines ["Validating config: " ++ quoted name]
    match loadConfig h (some name) with
    | .error e => .failure heading e.message
    | .ok c => .success (heading ++ unlines ("✓ Configuration is valid" :: configLines c))

/-- Prepares to serve: options count more than the configuration, which is checked with them. -/
def prepare (h : Host) (host : Option String) (port : Option Nat) (library config : Option String) :
    Except Config.Failure Config := do
  let c ← loadConfig h config
  let server := { c.server with host := host.getD c.server.host, port := port.getD c.server.port }
  Config.validate { c with server, library := { root := library.getD c.library.root } }

def Invocation.files (home : String) (i : Invocation) : List String :=
  let named := match i.action with
    | .probe file _ => [file]
    | .validate file => file.toList
    | .serve .. | .checkTools | .version => []
  named ++ i.config.toList ++ Config.usualPlaces home

/-- The files that a configuration may need: its tools, or those of the search path. -/
def toolFiles (h : Host) (c : Config) : List String :=
  let names := [Tool.Toolchain.encoderName,Tool.Toolchain.inspectorName]
  c.tools.ffmpeg.toList ++ c.tools.ffprobe.toList ++ h.searchPath.flatMap fun place => names.map fun name =>
      String.ofList (Path.join place.path name.toList)

def Invocation.run (h : Host) (i : Invocation) : Outcome :=
  match i.action with
  | .serve host port library =>
    match prepare h host port library i.config with
    | .error e => .failure "" e.message
    | .ok _ => .success ""
  | .probe file asJson => probe h file asJson i.config
  | .checkTools => checkTools h i.config
  | .validate file => validate h (file <|> i.config)
  | .version => .success (unlines [versionLine])

def run (h : Host) (arguments : List String) : Outcome :=
  match Invocation.ofArguments arguments with
  | .ok i => i.run h
  | .error .usage => ⟨2,"",none⟩
  | .error .help => .success ""
  | .error .version => .success (unlines [versionLine])

end Playout.CommandLine
