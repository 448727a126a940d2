import PolicyWarden.Proofs.Configuration.Location
import PolicyWarden.Rehearsal.Step

/-!
# What is kept of the configurations

The library keeps configurations by location and hands them out until it is cleared.  Seen from
outside, that is a statement about whole histories: a load gives back what the first successful load
of the same location gave back since the library was cleared last.  `Chronicle` says what happened
so far, and `Chronicle.firstLoaded?`, `Chronicle.file` and `Chronicle.environment` are read off it,
without a look into the library.  `Accounts` says that the library agrees with them.  One dealing
keeps this up (`Dealing.follows`, `Accounts.concat`), and so does any number of them.

Which location a load is about is said without the library, too: `AsksFor` tells the path, and the
places that paths denote tell the location.
-/

namespace PolicyWarden

/-! ### Finding and replacing -/

namespace ConfigurationLibrary

variable {α : Type} {location other : Text} {entries : List (Text × α)}

/-- The first entry at a location is found. -/
lemma find?_cons_self (value : α) : find? location ((location, value) :: entries) = some value := by
  simp [find?]

/-- Entries at other locations are passed over. -/
lemma find?_cons_of_ne (value : α) (apart : other ≠ location) :
    find? location ((other, value) :: entries) = find? location entries := by
  simp [find?, apart]

/-- No entry is left at a location that was taken out. -/
lemma find?_without_self : find? location (without location entries) = none := by
  simp [find?, without]

/-- Taking a location out leaves the others alone. -/
lemma find?_without_of_ne (apart : location ≠ other) :
    find? location (without other entries) = find? location entries := by
  rw [find?, find?, without, List.find?_filter]
  congr 2
  funext entry
  by_cases here : entry.1 = location
  · simp [here, apart]
  · simp [here]

/-- After a file was put somewhere it is found there, and the other files are where they were. -/
lemma find?_putFile (l : ConfigurationLibrary) (file : Option StoredFile) :
    find? location (l.putFile other file).files =
      if other = location then file else find? location l.files := by
  split
  · subst other
    cases file with
    | none => exact find?_without_self
    | some stored => exact find?_cons_self stored
  · rename_i apart
    have away : find? location (without other l.files) = find? location l.files :=
      find?_without_of_ne (Ne.symm apart)
    cases file with
    | none => exact away
    | some stored => exact (find?_cons_of_ne stored apart).trans away

/-! ### Reading -/

/-- `Reading location file result` says that the location, where there is a file or none, is read
with the result. -/
inductive Reading (location : Text) : Option StoredFile → Except Failure Configuration → Prop
  /-- The document in the file is a configuration. -/
  | accepted {content : Bytes} {document : Json} {configuration : Configuration}
      (parsed : Json.read? (Utf8.decode content) = some document)
      (fits : Configuration.ofJson (some document) = .ok configuration) :
      Reading location (some (.readable content)) (.ok configuration)
  /-- There is no file. -/
  | missing :
      Reading location none
        (.error (.problem (.configuration (.unreadable location)) (noSuchFile location)))
  /-- The file cannot be read. -/
  | unreadable {reason : Failure} :
      Reading location (some (.unreadable reason))
        (.error (.problem (.configuration (.unreadable location)) reason))
  /-- The file does not hold JSON. -/
  | notJson {content : Bytes} (unparsed : Json.read? (Utf8.decode content) = none) :
      Reading location (some (.readable content))
        (.error (.problem (.configuration (.notJson location))
          (.notJson (Json.complaint (Utf8.decode content)))))
  /-- The document in the file does not fit the schema. -/
  | invalid {content : Bytes} {document : Json} {issues : List Schema.Issue}
      (parsed : Json.read? (Utf8.decode content) = some document)
      (misfits : Configuration.check (some document) = .rejected issues) :
      Reading location (some (.readable content))
        (.error (.problem (.configuration (.invalid issues)) (.schema issues)))

/-- The library reads what is in the file. -/
lemma reading_read (l : ConfigurationLibrary) (location : Text) :
    Reading location (find? location l.files) (l.read location) := by
  rw [read]
  rcases find? location l.files with _ | content | reason
  · exact .missing
  · dsimp only
    cases parsed : Json.read? (Utf8.decode content) with
    | none => exact .notJson parsed
    | some document =>
      cases checked : Configuration.check (some document) with
      | accepted configuration =>
        have fits : Configuration.ofJson (some document) = .ok configuration := by
          rw [Configuration.ofJson, checked]
        dsimp only
        rw [fits]
        exact .accepted parsed fits
      | rejected issues =>
        have misfits : Configuration.ofJson (some document) =
            .error (.problem (.configuration (.invalid issues)) (.schema issues)) := by
          rw [Configuration.ofJson, checked]
          rfl
        dsimp only
        rw [misfits]
        exact .invalid parsed checked
  · exact .unreadable

/-- A file with a configuration in it is read. -/
lemma read_eq_ok {l : ConfigurationLibrary} {configuration : Configuration}
    (reading : Reading location (find? location l.files) (.ok configuration)) :
    l.read location = .ok configuration := by
  generalize found : find? location l.files = file at reading
  cases reading with
  | accepted parsed fits =>
    rw [read, found]
    dsimp only
    rw [parsed]
    exact fits

/-! ### Loading -/

section Loading

variable {l : ConfigurationLibrary} {environment : Environment} {path : Option Text}

/-- What is kept is handed out again. -/
lemma load_of_kept {loaded : LoadedConfiguration}
    (kept : find? (l.locate environment path) l.kept = some loaded) :
    l.load environment path =
      ⟨.ok loaded, [.cachedConfiguration (l.locate environment path)], l⟩ := by
  rw [load, loadLocation, kept]

/-- A failed reading leaves the library alone. -/
lemma load_of_error {failure : Failure}
    (unkept : find? (l.locate environment path) l.kept = none)
    (failed : l.read (l.locate environment path) = .error failure) :
    l.load environment path = ⟨.error failure, [], l⟩ := by
  rw [load, loadLocation, unkept]
  dsimp only
  rw [failed]

/-- What is read is kept under a number of its own. -/
lemma load_of_ok {configuration : Configuration}
    (unkept : find? (l.locate environment path) l.kept = none)
    (succeeded : l.read (l.locate environment path) = .ok configuration) :
    l.load environment path =
      ⟨.ok ⟨configuration, l.readings⟩,
        [.loadedConfiguration (l.locate environment path) configuration],
        l.keep (l.locate environment path) configuration⟩ := by
  rw [load, loadLocation, unkept]
  dsimp only
  rw [succeeded]

end Loading

end ConfigurationLibrary

open ConfigurationLibrary

namespace Rehearsal

/-! ### Chronicles -/

/-- What happened to a library, as it can be seen from outside. -/
inductive Happening where
  /-- A location was loaded, with a result. -/
  | loaded (location : Text) (result : Except Failure LoadedConfiguration)
  /-- A file changed or disappeared. -/
  | put (location : Text) (file : Option StoredFile)
  /-- The environment was replaced. -/
  | moved (environment : Environment)
  /-- The library was cleared. -/
  | cleared

namespace Happening

/-- The configuration that a location was loaded with. -/
def success? (location : Text) : Happening → Option LoadedConfiguration
  | loaded other (.ok configuration) => if other = location then some configuration else none
  | _ => none

/-- The file that a location was given, or that it was left without one. -/
def file? (location : Text) : Happening → Option (Option StoredFile)
  | put other file => if other = location then some file else none
  | _ => none

/-- The environment that took the place of another one. -/
def environment? : Happening → Option Environment
  | moved environment => some environment
  | _ => none

/-- The library was cleared. -/
def isClear : Happening → Bool
  | cleared => true
  | _ => false

end Happening

/-- Everything that happened, in its order. -/
abbrev Chronicle := List Happening

namespace Chronicle

/-- What happened since the library was cleared last. -/
def sinceClear (past : Chronicle) : Chronicle :=
  (past.reverse.takeWhile fun happening => !happening.isClear).reverse

/-- The configuration of the first successful load of a location since the library was cleared. -/
def firstLoaded? (location : Text) (past : Chronicle) : Option LoadedConfiguration :=
  past.sinceClear.findSome? (Happening.success? location)

/-- The file at a location by now, if there is one. -/
def file (files : List (Text × StoredFile)) (location : Text) (past : Chronicle) :
    Option StoredFile :=
  (past.reverse.findSome? (Happening.file? location)).getD (find? location files)

/-- The environment by now. -/
def environment (initial : Environment) (past : Chronicle) : Environment :=
  (past.reverse.findSome? Happening.environment?).getD initial

variable {past : Chronicle} {location : Text} {happening : Happening}

/-- What is loaded later does not matter if something was loaded before; clearing the library leaves
nothing loaded. -/
lemma firstLoaded?_concat :
    firstLoaded? location (past ++ [happening]) =
      if happening.isClear then none
      else (firstLoaded? location past).or (happening.success? location) := by
  cases clear : happening.isClear with
  | true => simp [firstLoaded?, sinceClear, clear]
  | false =>
    have since : sinceClear (past ++ [happening]) = sinceClear past ++ [happening] := by
      simp [sinceClear, clear]
    rw [firstLoaded?, since, List.findSome?_append, List.findSome?_singleton]
    rfl

/-- A load before the library was cleared does not count, and neither does a later one. -/
example (a b c : LoadedConfiguration) (location : Text) :
    firstLoaded? location [.loaded location (.ok a), .cleared, .loaded location (.ok b),
      .loaded location (.ok c)] = some b := by
  simp [firstLoaded?, sinceClear, Happening.isClear, Happening.success?]

/-- What was loaded first was loaded. -/
lemma mem_of_firstLoaded? {loaded : LoadedConfiguration}
    (first : firstLoaded? location past = some loaded) : .loaded location (.ok loaded) ∈ past := by
  obtain ⟨happening, mem, success⟩ := List.exists_of_findSome?_eq_some first
  have since : happening ∈ past := by
    have reversed := (List.takeWhile_sublist _).mem (List.mem_reverse.mp mem)
    exact List.mem_reverse.mp reversed
  cases happening with
  | loaded other result =>
    cases result with
    | error failure => cases success
    | ok configuration =>
      rw [Happening.success?] at success
      split at success
      · rename_i same
        obtain rfl := Option.some.inj success
        rwa [same] at since
      · cases success
  | put | moved | cleared => cases success

/-- The last change of a file counts. -/
lemma file_concat (files : List (Text × StoredFile)) :
    file files location (past ++ [happening]) =
      (happening.file? location).getD (file files location past) := by
  rw [file, List.reverse_concat, List.findSome?_cons]
  cases happening.file? location <;> rfl

/-- The last environment counts. -/
lemma environment_concat (initial : Environment) :
    environment initial (past ++ [happening]) =
      happening.environment?.getD (environment initial past) := by
  rw [environment, List.reverse_concat, List.findSome?_cons]
  cases happening.environment? <;> rfl

end Chronicle

/-! ### Deeds -/

/-- Something that is done with the library of a world, or with the files and the environment around
it. -/
inductive Dealing where
  | load (path : Option Text)
  | putFile (location : Text) (file : Option StoredFile)
  | setEnvironment (environment : Environment)
  | clear

namespace Dealing

/-- The step of a rehearsal that a dealing is. -/
def step : Dealing → Step
  | load path => .load path
  | putFile location file => .act (.putFile location file)
  | setEnvironment environment => .act (.setEnvironment environment)
  | clear => .act .clearConfigurations

/-- The world after a dealing. -/
def world (w : World) (dealing : Dealing) : World :=
  (w.step dealing.step).1

/-- What happens with a dealing. -/
def happening (w : World) : Dealing → Happening
  | load path =>
      .loaded (w.library.locate w.environment path) (w.loadConfiguration path).2
  | putFile location file => .put location file
  | setEnvironment environment => .moved environment
  | clear => .cleared

end Dealing

/-- What happens with dealings that are done one after another. -/
def chronicle : World → List Dealing → Chronicle
  | _, [] => []
  | w, dealing :: dealings => dealing.happening w :: chronicle (dealing.world w) dealings

/-! ### One dealing -/

/-- How the world goes on with a happening: what is kept, the files and the environment change as
the happening says, paths start where they did, and a configuration that was not kept before has a
number of its own. -/
structure Follows (w : World) (happening : Happening) (next : World) : Prop where
  directory : next.library.directory = w.library.directory
  kept : ∀ location, find? location next.library.kept =
    if happening.isClear then none
    else (find? location w.library.kept).or (happening.success? location)
  file : ∀ location, find? location next.library.files =
    (happening.file? location).getD (find? location w.library.files)
  environment : next.environment = happening.environment?.getD w.environment
  growing : w.library.readings ≤ next.library.readings
  numbered : ∀ location loaded, happening = .loaded location (.ok loaded) →
    find? location w.library.kept = some loaded ∨ loaded.serial < next.library.readings
  awake : next.awake = w.awake

namespace Dealing

variable {w : World} {path : Option Text}

/-- What happens with a load. -/
lemma happening_load : (load path).happening w =
    .loaded (w.library.locate w.environment path) (w.library.load w.environment path).result :=
  rfl

/-- The library after a load. -/
lemma library_load : ((load path).world w).library =
    (w.library.load w.environment path).library :=
  rfl

/-- Handing out what is kept leaves the library alone. -/
lemma library_of_kept {loaded : LoadedConfiguration}
    (kept : find? (w.library.locate w.environment path) w.library.kept = some loaded) :
    ((load path).world w).library = w.library := by
  rw [library_load, load_of_kept kept]

/-- A load that fails leaves the library alone. -/
lemma library_of_error {failure : Failure}
    (unkept : find? (w.library.locate w.environment path) w.library.kept = none)
    (failed : w.library.read (w.library.locate w.environment path) = .error failure) :
    ((load path).world w).library = w.library := by
  rw [library_load, load_of_error unkept failed]

/-- A load of what is kept. -/
lemma follows_load_of_kept {loaded : LoadedConfiguration}
    (kept : find? (w.library.locate w.environment path) w.library.kept = some loaded) :
    Follows w ((load path).happening w) ((load path).world w) := by
  have stays : ((load path).world w).library = w.library := library_of_kept kept
  rw [happening_load, load_of_kept kept]
  refine ⟨congrArg (·.directory) stays, fun location => ?_, fun location => ?_, rfl, ?_,
    fun location other eq => .inl ?_, rfl⟩
  · rw [stays, Happening.success?]
    by_cases same : w.library.locate w.environment path = location
    · rw [if_pos same, ← same, kept]
      rfl
    · rw [if_neg same, Option.or_none]
      rfl
  · rw [stays]
    rfl
  · exact Nat.le_of_eq (congrArg (·.readings) stays.symm)
  · cases eq
    exact kept

/-- A load that fails. -/
lemma follows_load_of_error {failure : Failure}
    (unkept : find? (w.library.locate w.environment path) w.library.kept = none)
    (failed : w.library.read (w.library.locate w.environment path) = .error failure) :
    Follows w ((load path).happening w) ((load path).world w) := by
  have stays : ((load path).world w).library = w.library := library_of_error unkept failed
  rw [happening_load, load_of_error unkept failed]
  refine ⟨congrArg (·.directory) stays, fun location => ?_, fun location => ?_, rfl, ?_,
    fun location other eq => ?_, rfl⟩
  · rw [stays]
    exact Option.or_none.symm
  · rw [stays]
    rfl
  · exact Nat.le_of_eq (congrArg (·.readings) stays.symm)
  · cases eq

/-- A load of what is read for the first time. -/
lemma follows_load_of_ok {configuration : Configuration}
    (unkept : find? (w.library.locate w.environment path) w.library.kept = none)
    (succeeded : w.library.read (w.library.locate w.environment path) =
      .ok configuration) :
    Follows w ((load path).happening w) ((load path).world w) := by
  have grown : ((load path).world w).library.readings = w.library.readings + 1 := by
    rw [library_load, load_of_ok unkept succeeded]
    rfl
  rw [happening_load, load_of_ok unkept succeeded]
  refine ⟨?_, fun location => ?_, fun location => ?_, rfl, ?_,
    fun location other eq => .inr ?_, rfl⟩
  · rw [library_load, load_of_ok unkept succeeded]
    rfl
  · rw [library_load, load_of_ok unkept succeeded, Happening.success?]
    by_cases same : w.library.locate w.environment path = location
    · rw [if_pos same, ← same, unkept]
      exact find?_cons_self _
    · rw [if_neg same, Option.or_none]
      exact find?_cons_of_ne _ same
  · rw [library_load, load_of_ok unkept succeeded]
    rfl
  · rw [grown]
    exact Nat.le_succ _
  · cases eq
    rw [grown]
    exact Nat.lt_succ_self _

/-- An action that wakes nobody leaves the world as the action says. -/
lemma world_act {action : Action} (calm : (w.act action).awake = []) :
    (w.step (.act action)).1 = w.act action :=
  World.settle_of_awake_eq_nil calm

/-- While nobody is awake, the world goes on with a dealing as its happening says. -/
lemma follows (dealing : Dealing) (calm : w.awake = []) :
    Follows w (dealing.happening w) (dealing.world w) := by
  cases dealing with
  | load path =>
    cases kept : find? (w.library.locate w.environment path) w.library.kept with
    | some loaded => exact follows_load_of_kept kept
    | none =>
      cases read : w.library.read (w.library.locate w.environment path) with
      | error failure => exact follows_load_of_error kept read
      | ok configuration => exact follows_load_of_ok kept read
  | putFile place file =>
    have acted : (putFile place file).world w = w.act (.putFile place file) := world_act calm
    rw [acted]
    refine ⟨rfl, fun _ => Option.or_none.symm, fun location => ?_, rfl, Nat.le_refl _, nofun, rfl⟩
    refine (find?_putFile w.library file).trans ?_
    rw [happening, Happening.file?]
    split <;> rfl
  | setEnvironment environment =>
    have acted : (setEnvironment environment).world w = w.act (.setEnvironment environment) :=
      world_act calm
    rw [acted]
    exact ⟨rfl, fun _ => Option.or_none.symm, fun _ => rfl, rfl, Nat.le_refl _, nofun, rfl⟩
  | clear =>
    have acted : clear.world w = w.act .clearConfigurations := world_act calm
    rw [acted]
    exact ⟨rfl, fun _ => rfl, fun _ => rfl, rfl, Nat.le_refl _, nofun, rfl⟩

end Dealing

/-! ### Any number of dealings -/

/-- The library agrees with what happened since it had the files and nothing else. -/
structure Accounts (directory : Text) (files : List (Text × StoredFile)) (initial : Environment)
    (past : Chronicle) (w : World) : Prop where
  directory : w.library.directory = directory
  kept : ∀ location, find? location w.library.kept = past.firstLoaded? location
  file : ∀ location, find? location w.library.files = past.file files location
  environment : w.environment = past.environment initial
  numbered : ∀ location loaded, .loaded location (.ok loaded) ∈ past →
    loaded.serial < w.library.readings
  awake : w.awake = []

namespace Accounts

variable {directory : Text} {files : List (Text × StoredFile)} {initial : Environment}
  {past : Chronicle} {w : World}

/-- In the beginning nothing has happened. -/
lemma start (directory : Text) (files : List (Text × StoredFile)) (initial : Environment) :
    Accounts directory files initial []
      { environment := initial, library := .ofFiles directory files } where
  directory := rfl
  kept _ := rfl
  file _ := rfl
  environment := rfl
  numbered _ _ mem := nomatch mem
  awake := rfl

/-- What happens next is accounted for. -/
lemma concat (accounts : Accounts directory files initial past w) {happening : Happening}
    {next : World} (follows : Follows w happening next) :
    Accounts directory files initial (past ++ [happening]) next where
  directory := follows.directory.trans accounts.directory
  kept location := by
    rw [follows.kept, Chronicle.firstLoaded?_concat, accounts.kept]
  file location := by
    rw [follows.file, Chronicle.file_concat, accounts.file]
  environment := by
    rw [follows.environment, Chronicle.environment_concat, accounts.environment]
  numbered location loaded mem := by
    have earlier (mem : .loaded location (.ok loaded) ∈ past) :
        loaded.serial < next.library.readings :=
      Nat.lt_of_lt_of_le (accounts.numbered location loaded mem) follows.growing
    rcases List.mem_append.mp mem with before | now
    · exact earlier before
    · rcases follows.numbered location loaded (List.mem_singleton.mp now).symm with kept | numbered
      · rw [accounts.kept] at kept
        exact earlier (Chronicle.mem_of_firstLoaded? kept)
      · exact numbered
  awake := follows.awake.trans accounts.awake

/-- Any number of dealings is accounted for. -/
lemma dealings (accounts : Accounts directory files initial past w) (dealings : List Dealing) :
    Accounts directory files initial (past ++ chronicle w dealings)
      (dealings.foldl Dealing.world w) := by
  induction dealings generalizing past w with
  | nil =>
    rw [chronicle, List.append_nil]
    exact accounts
  | cons dealing dealings ih =>
    have onward := ih (accounts.concat (dealing.follows accounts.awake))
    rwa [List.append_assoc] at onward

end Accounts

/-! ### Loads -/

/-- What a load reports. -/
def World.reportOf (w : World) (path : Option Text) : Result :=
  (w.step (.load path)).2

/-- The report of a configuration. -/
def Result.configuration (loaded : LoadedConfiguration) : Result :=
  .reported (.ok (.configuration loaded))

/-- The report of a failure. -/
def Result.failure (failure : Failure) : Result :=
  .reported (.error failure)

/-- What a load comes to in a world with a past, at a location where there is a file or none. -/
inductive Comes (past : Chronicle) (location : Text) (file : Option StoredFile) (w : World)
    (path : Option Text) : Prop
  /-- What was loaded first is handed out again, and the library stays as it was. -/
  | again {loaded : LoadedConfiguration} (first : past.firstLoaded? location = some loaded)
      (report : w.reportOf path = .configuration loaded)
      (unchanged : (w.step (.load path)).1.library = w.library) :
      Comes past location file w path
  /-- Nothing was loaded, and what the file holds now is handed out under a number that no
  configuration has had before. -/
  | afresh {configuration : Configuration} {serial : Nat}
      (first : past.firstLoaded? location = none)
      (reading : Reading location file (.ok configuration))
      (report : w.reportOf path = .configuration ⟨configuration, serial⟩)
      (fresh : ∀ other loaded, .loaded other (.ok loaded) ∈ past → loaded.serial ≠ serial) :
      Comes past location file w path
  /-- Nothing was loaded, and the file cannot be used: the library stays as it was, and once the
  file is repaired the location can be loaded under any of its spellings. -/
  | refused {failure : Failure} (first : past.firstLoaded? location = none)
      (reading : Reading location file (.error failure))
      (report : w.reportOf path = .failure failure)
      (unchanged : (w.step (.load path)).1.library = w.library)
      (repairable : ∀ stored configuration other,
        Reading location (some stored) (.ok configuration) →
        w.library.locate w.environment other = location →
        ∃ serial, ((w.step (.load path)).1.step (.act (.putFile location (some stored)))).1.reportOf
          other = .configuration ⟨configuration, serial⟩) :
      Comes past location file w path

/-- A load reports what the library gives. -/
lemma World.reportOf_eq {w : World} {path : Option Text} :
    w.reportOf path = match (w.library.load w.environment path).result with
      | .ok loaded => .configuration loaded
      | .error failure => .failure failure := by
  show Result.reported ((w.library.load w.environment path).result.map .configuration) = _
  cases (w.library.load w.environment path).result <;> rfl

section Loads

variable {directory : Text} {files : List (Text × StoredFile)} {initial : Environment}
  {past : Chronicle} {w : World} {path : Option Text}

/-- The location that a load asks for, in terms of the past. -/
lemma Accounts.locate_eq (accounts : Accounts directory files initial past w)
    (path : Option Text) : w.library.locate w.environment path =
      Location.resolve directory (pathOr (past.environment initial) path) := by
  rw [locate, accounts.directory, accounts.environment]

/-- Where nothing was loaded, a file with a configuration in it is loaded under the next number. -/
lemma Accounts.reportOf_eq (accounts : Accounts directory files initial past w) (location : Text)
    {configuration : Configuration} (here : w.library.locate w.environment path = location)
    (first : past.firstLoaded? location = none)
    (reading : Reading location (past.file files location) (.ok configuration)) :
    w.reportOf path = .configuration ⟨configuration, w.library.readings⟩ := by
  subst here
  rw [← accounts.file] at reading
  rw [World.reportOf_eq, load_of_ok ((accounts.kept _).trans first) (read_eq_ok reading)]

/-- A file that is repaired after a failed load can be loaded. -/
lemma Accounts.repairable (accounts : Accounts directory files initial past w) {failure : Failure}
    {stored : StoredFile} {configuration : Configuration} {other : Option Text}
    (first : past.firstLoaded? (w.library.locate w.environment path) = none)
    (failed : w.library.read (w.library.locate w.environment path) = .error failure)
    (reading : Reading (w.library.locate w.environment path) (some stored) (.ok configuration))
    (same : w.library.locate w.environment other = w.library.locate w.environment path) :
    ∃ serial, ((w.step (.load path)).1.step (.act (.putFile
      (w.library.locate w.environment path) (some stored)))).1.reportOf other =
        .configuration ⟨configuration, serial⟩ := by
  let location := w.library.locate w.environment path
  have loads := (Dealing.load path).follows accounts.awake
  have loaded := accounts.concat loads
  have puts := (Dealing.putFile location (some stored)).follows loaded.awake
  have repaired := loaded.concat puts
  have happened : (Dealing.load path).happening w = .loaded location (.error failure) := by
    rw [Dealing.happening_load, load_of_error ((accounts.kept _).trans first) failed]
  refine ⟨_, repaired.reportOf_eq location ?_ ?_ ?_⟩
  · have there := puts.directory.trans loads.directory
    have moved := puts.environment.trans loads.environment
    rw [locate, there, moved]
    exact same
  · rw [Chronicle.firstLoaded?_concat, Chronicle.firstLoaded?_concat, first, happened]
    rfl
  · have put : (Dealing.putFile location (some stored)).happening ((Dealing.load path).world w) =
        .put location (some stored) := rfl
    rw [Chronicle.file_concat, put, Happening.file?, if_pos rfl]
    exact reading

/-- A load comes to what the accounts of the library say. -/
lemma Accounts.comes (accounts : Accounts directory files initial past w) (path : Option Text) :
    let location := w.library.locate w.environment path
    Comes past location (past.file files location) w path := by
  intro location
  have reading := reading_read w.library location
  rw [accounts.file] at reading
  cases kept : find? location w.library.kept with
  | some loaded =>
    refine .again ((accounts.kept location).symm.trans kept) ?_ ?_
    · rw [World.reportOf_eq, load_of_kept kept]
    · exact Dealing.library_of_kept kept
  | none =>
    have first := (accounts.kept location).symm.trans kept
    cases read : w.library.read location with
    | error failure =>
      rw [read] at reading
      refine .refused first reading ?_ ?_ fun stored configuration other repaired same => ?_
      · rw [World.reportOf_eq, load_of_error kept read]
      · exact Dealing.library_of_error kept read
      · exact accounts.repairable first read repaired same
    | ok configuration =>
      rw [read] at reading
      refine .afresh first reading (accounts.reportOf_eq location rfl first reading)
        fun other loaded mem => ?_
      exact Nat.ne_of_lt (accounts.numbered other loaded mem)

end Loads

/-- `AsksFor environment given path`: a load that is given a path, or none, asks for a path. -/
inductive AsksFor (environment : Environment) : Option Text → Text → Prop
  /-- A path that is given counts, whatever the environment says. -/
  | given (path : Text) : AsksFor environment (some path) path
  /-- Where none is given, the path that the environment names counts. -/
  | named {path : Text} (set : environment.get? "REMEDIATION_CONFIG_PATH" = some path) :
      AsksFor environment none path
  /-- Where there is neither, the path is always the same. -/
  | fallback (unset : environment.get? "REMEDIATION_CONFIG_PATH" = none) :
      AsksFor environment none "config.json"

/-- The path of a load is the one that it asks for. -/
lemma pathOr_eq_iff {environment : Environment} {given : Option Text} {path : Text} :
    pathOr environment given = path ↔ AsksFor environment given path := by
  constructor
  · rintro rfl
    cases given with
    | some path => exact .given path
    | none =>
      cases set : environment.get? pathVariable with
      | some path =>
        rw [pathOr, set]
        exact .named set
      | none =>
        rw [pathOr, set]
        exact .fallback set
  · rintro (_ | set | unset)
    · rfl
    · rw [pathOr, pathVariable, set]
      rfl
    · rw [pathOr, pathVariable, unset]
      rfl

/-- **Keeping configurations.**  Whatever files and environment there are at first, and whatever is
loaded, changed and cleared after that: the next load comes to what was loaded first at its location
since the library was cleared last, and where there was nothing, to what the file holds now.  The
location is that of the path that the load asks for, and all spellings that denote one place in the
directory have one location, which is a spelling of itself. -/
theorem load_returns_first_loaded (directory : Text) (files : List (Text × StoredFile))
    (initial : Environment) (dealings : List Dealing) (path : Option Text) :
    let start : World := { environment := initial, library := .ofFiles directory files }
    let past := chronicle start dealings
    let location := Location.resolve directory (pathOr (past.environment initial) path)
    (∀ environment given asked, pathOr environment given = asked ↔
      AsksFor environment given asked) ∧
    (∀ spelling, ∃ place, Location.Denotes directory spelling place ∧
      Location.resolve directory spelling = Location.ofNames place) ∧
    (∀ spelling other, Location.resolve directory spelling = Location.resolve directory other ↔
      ∃ place, Location.Denotes directory spelling place ∧
        Location.Denotes directory other place) ∧
    (∀ spelling, Location.resolve directory (Location.resolve directory spelling) =
      Location.resolve directory spelling) ∧
    Comes past location (past.file files location) (dealings.foldl Dealing.world start) path := by
  intro start past location
  have accounts : Accounts directory files initial past (dealings.foldl Dealing.world start) :=
    (Accounts.start directory files initial).dealings dealings
  have here : location =
      (dealings.foldl Dealing.world start).library.locate
        (dealings.foldl Dealing.world start).environment path := (accounts.locate_eq path).symm
  refine ⟨fun _ _ _ => pathOr_eq_iff,
    fun spelling => ⟨_, Location.denotes_names directory spelling, rfl⟩,
    fun _ _ => Location.resolve_eq_resolve_iff, fun _ => Location.resolve_resolve directory, ?_⟩
  rw [here]
  exact accounts.comes path

/-- A configuration that was loaded under one spelling is handed out under another one that the
environment names, although its file is gone; after the library was cleared the file is missed. -/
theorem load_returns_first_loaded_respelled :
    let files : List (Text × StoredFile) :=
      [("/work/config.json", .readable (Utf8.encode "\x7b\"AllowDomains\":[]\x7d"))]
    let start : World := { environment := [], library := .ofFiles "/work" files }
    let dealings : List Dealing :=
      [.load (some "./config.json"), .putFile "/work/config.json" none,
        .setEnvironment [("REMEDIATION_CONFIG_PATH", "a/../config.json")]]
    let cleared : List Dealing := dealings ++ [.clear]
    (dealings.foldl Dealing.world start).reportOf none = .configuration ⟨⟨[], none⟩, 0⟩ ∧
      (cleared.foldl Dealing.world start).reportOf none =
        .failure (.problem (.configuration (.unreadable "/work/config.json"))
          (noSuchFile "/work/config.json")) := by
  intro files start dealings cleared
  constructor
  · obtain ⟨-, -, -, -, comes⟩ := load_returns_first_loaded "/work" files [] dealings none
    have before : (chronicle start dealings).firstLoaded? "/work/config.json" =
        some ⟨⟨[], none⟩, 0⟩ := by
      decide +kernel
    have place :
        Location.resolve "/work" (pathOr ((chronicle start dealings).environment []) none) =
          "/work/config.json" := by
      decide +kernel
    rw [place] at comes
    cases comes with
    | again first report =>
      obtain rfl := Option.some.inj (before.symm.trans first)
      exact report
    | afresh first | refused first => cases before.symm.trans first
  · obtain ⟨-, -, -, -, comes⟩ := load_returns_first_loaded "/work" files [] cleared none
    have before : (chronicle start cleared).firstLoaded? "/work/config.json" = none := by
      decide +kernel
    have gone : (chronicle start cleared).file files "/work/config.json" = none := by
      decide +kernel
    have place :
        Location.resolve "/work" (pathOr ((chronicle start cleared).environment []) none) =
          "/work/config.json" := by
      decide +kernel
    rw [place, gone] at comes
    cases comes with
    | again first => cases before.symm.trans first
    | afresh _ reading => cases reading
    | refused _ reading report =>
      cases reading
      exact report

end Rehearsal

end PolicyWarden
