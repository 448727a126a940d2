import PolicyWarden.Configuration.Location
import PolicyWarden.Configuration.Settings
import PolicyWarden.Journal.Entry
import PolicyWarden.Json.Fault
import PolicyWarden.Text.Utf8

/-!
# The library of configurations

Configurations are read from files and kept by location, so that every spelling of a path finds the
same one.  A configuration that was read once is handed out again, whatever its file holds by then,
until the library is cleared; a failed reading keeps nothing.

What the files are is up to the surroundings: a location may have a file with some content, or one
that is refused for any reason, and a location without a file cannot be read either.
-/

namespace PolicyWarden

/-- A configuration that was read, with the number of that reading. -/
structure LoadedConfiguration where
  configuration : Configuration
  serial : Nat
  deriving DecidableEq, Repr

/-- A file as whoever reads it finds it. -/
inductive StoredFile where
  /-- The file has a content. -/
  | readable (content : Bytes)
  /-- The file cannot be read, for a reason. -/
  | unreadable (reason : Failure)
  deriving DecidableEq, Repr

/-- The directory in which relative paths start, the files, the configurations that are kept, and
how many have been read. -/
structure ConfigurationLibrary where
  directory : Text
  files : List (Text × StoredFile)
  kept : List (Text × LoadedConfiguration)
  readings : Nat
  deriving DecidableEq, Repr

namespace ConfigurationLibrary

/-! ### Files -/

/-- The library of some files that has read none of them. -/
def ofFiles (directory : Text) (files : List (Text × StoredFile)) : ConfigurationLibrary :=
  ⟨directory, files, [], 0⟩

/-- Find an entry by its location. -/
def find? {α : Type} (location : Text) (entries : List (Text × α)) : Option α :=
  (entries.find? fun entry => entry.1 = location).map (·.2)

/-- Entries without those at a location. -/
def without {α : Type} (location : Text) (entries : List (Text × α)) : List (Text × α) :=
  entries.filter fun entry => entry.1 ≠ location

/-- Replace a file, or remove it. -/
def putFile (l : ConfigurationLibrary) (location : Text) (file : Option StoredFile) :
    ConfigurationLibrary :=
  let others := without location l.files
  { l with files := match file with
      | some stored => (location, stored) :: others
      | none => others }

/-- Forget the configurations that are kept. -/
def clear (l : ConfigurationLibrary) : ConfigurationLibrary :=
  { l with kept := [] }

/-! ### Reading -/

/-- No file is at a location. -/
def noSuchFile (location : Text) : Failure :=
  .error (("ENOENT: no such file or directory, open '" : Text) ++ location ++ "'")

/-- The configuration in the file at a location. -/
def read (l : ConfigurationLibrary) (location : Text) : Except Failure Configuration :=
  match find? location l.files with
  | none => Configuration.unusable (.unreadable location) (noSuchFile location)
  | some (.unreadable reason) => Configuration.unusable (.unreadable location) reason
  | some (.readable content) =>
      let t := Utf8.decode content
      match Json.read? t with
      | none => Configuration.unusable (.notJson location) (.notJson (Json.complaint t))
      | some document => Configuration.ofJson (some document)

/-! ### Loading -/

/-- The result of a load, what is recorded about it, and the library after it. -/
structure Load where
  result : Except Failure LoadedConfiguration
  entries : List Entry
  library : ConfigurationLibrary

/-- Keep a configuration that was just read. -/
def keep (l : ConfigurationLibrary) (location : Text) (configuration : Configuration) :
    ConfigurationLibrary :=
  { l with
    kept := (location, ⟨configuration, l.readings⟩) :: l.kept
    readings := l.readings + 1 }

/-- Load the configuration at a location. -/
def loadLocation (l : ConfigurationLibrary) (location : Text) : Load :=
  match find? location l.kept with
  | some loaded => ⟨.ok loaded, [.cachedConfiguration location], l⟩
  | none =>
      match l.read location with
      | .error failure => ⟨.error failure, [], l⟩
      | .ok configuration =>
          ⟨.ok ⟨configuration, l.readings⟩, [.loadedConfiguration location configuration],
            l.keep location configuration⟩

/-- The variable that names the configuration. -/
def pathVariable : Text :=
  "REMEDIATION_CONFIG_PATH"

/-- The path that applies where none is named. -/
def defaultPath : Text :=
  "config.json"

/-- The path that is given, or the one that the environment names. -/
def pathOr (environment : Environment) (given : Option Text) : Text :=
  given.getD ((environment.get? pathVariable).getD defaultPath)

/-- The location of the configuration that is asked for with a path or without one. -/
def locate (l : ConfigurationLibrary) (environment : Environment) (given : Option Text) : Text :=
  Location.resolve l.directory (pathOr environment given)

/-- Load the configuration at a path. -/
def load (l : ConfigurationLibrary) (environment : Environment) (given : Option Text) : Load :=
  l.loadLocation (l.locate environment given)

end ConfigurationLibrary

end PolicyWarden
