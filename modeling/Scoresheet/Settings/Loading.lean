import Scoresheet.Host
import Scoresheet.Settings
import Scoresheet.Settings.Reference

/-!
# Loading settings

Settings come from a file that is named, else from one in the working directory, else from one in
the user's home, else they are those that each has of its own. Variables of the environment come
before the file, and the key may refer to further ones.

* `Settings.load` — the settings of a run.
* `Settings.LoadError` — why there are none.
-/

namespace Scoresheet.Settings

/-- The variable that holds the key. -/
def keyVariable : String := "SCORECALC_SIGNING_KEY"

/-- The variable that names the failure policy. -/
def policyVariable : String := "SCORECALC_FAILURE_POLICY"

/-- Why settings cannot be loaded. -/
inductive LoadError where
  | missing (path : Path)
  | unreadable (path : Path) (fault : FileFault)
  | unparsable (path : Path) (error : ParseError)
  | policy (message : String)
  /-- The references of the key do not come to an end. No machine finds that out: it replaces them
  forever. -/
  | endlessKey
deriving DecidableEq

/-- What is said of an error, from the outside in. -/
def LoadError.chain : LoadError → List String
  | missing path => ["config file not found: " ++ path.text]
  | unreadable path fault => ["failed to read config: " ++ path.text, fault.message]
  | unparsable path error => ["failed to parse config: " ++ path.text, error.message]
  | policy message => [policyVariable ++ ": " ++ message]
  | endlessKey => ["signing_key: references do not come to an end"]

/-- The file of the working directory that holds settings. -/
def localFile : Path := ⟨"scorecalc.toml"⟩

/-- The file of a home directory that holds settings. -/
def homeFile (home : String) : Path :=
  (((Path.mk home).join ⟨".config"⟩).join ⟨"scorecalc"⟩).join ⟨"config.toml"⟩

variable {m : Type → Type} [Monad m] [Host m]

/-- The file that settings are read from, if there is one. A file that is named must exist. -/
def file? : Option Path → ExceptT LoadError m (Option Path)
  | some path => do
    if ← Host.hasFile path then return some path else throw (.missing path)
  | none => do
    if ← Host.hasFile localFile then return some localFile
    match ← Host.environmentValue? "HOME" with
    | none => return none
    | some home =>
      if ← Host.hasFile (homeFile home) then return some (homeFile home) else return none

/-- The settings of a file. -/
def readFile (path : Path) : ExceptT LoadError m Settings := do
  match ← Host.readText path with
  | .error fault => throw (.unreadable path fault)
  | .ok text =>
    match parse text with
    | .error error => throw (.unparsable path error)
    | .ok settings => return settings

/-- The settings of the file, or those that each has of its own where there is none. -/
def fromFile (path? : Option Path) : ExceptT LoadError m Settings := do
  match ← file? path? with
  | some path => readFile path
  | none => return {}

/-- The failure policy, which a variable decides if it is set. -/
def policyOf (policy : FailurePolicy) : ExceptT LoadError m FailurePolicy := do
  match ← Host.environmentValue? policyVariable with
  | none => return policy
  | some request => MonadExcept.ofExcept ((FailurePolicy.ofRequest request).mapError .policy)

/-- The value of a variable; one that is not set counts as empty. -/
def valueOf (name : String) : m String := do
  return (← Host.environmentValue? name).getD ""

/-- The key with its references replaced. A key without characters is none. -/
def expandKey : Option String → ExceptT LoadError m (Option String)
  | none => return none
  | some key => do
    match ← ExceptT.lift (expand valueOf key.toList) with
    | none => throw .endlessKey
    -- A key without characters counts as not set.
    | some [] => return none
    | some text => return some (String.ofList text)

/-- **The settings of a run.** -/
def load (path? : Option Path) : ExceptT LoadError m Settings := do
  let settings ← fromFile path?
  let key := (← Host.environmentValue? keyVariable).or settings.signingKey
  let policy ← policyOf settings.scoring.failurePolicy
  let key ← expandKey key
  return { settings with
    scoring := { settings.scoring with failurePolicy := policy }
    signingKey := key }

end Scoresheet.Settings
