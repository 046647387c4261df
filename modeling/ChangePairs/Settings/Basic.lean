import ChangePairs.Settings.Extension

/-!
Settings in three layers: the environment before the settings file before the built-in values.
An environment variable counts as soon as it is set, even to the empty text, and a value in the
file unless it is null.  Every setting depends on its own variable and its own key alone, and all
that is read of the two upper layers is `Layers.value?`.
-/

namespace ChangePairs

abbrev Environment := Text → Option Text

inductive Setting where
  | learnApiUrl
  | studioUrl
  | engine
  | strategy
  | matching
  | maxWorkers
  | requestTimeout
  | maxRetries
  | retryDelay
  | extensions
  | logDirectory
deriving DecidableEq, Repr

namespace Setting

def all : List Setting :=
  [.learnApiUrl, .studioUrl, .engine, .strategy, .matching, .maxWorkers, .requestTimeout,
   .maxRetries, .retryDelay, .extensions, .logDirectory]

def key : Setting → Text
  | .learnApiUrl => "learn_api_url".toList
  | .studioUrl => "studio_url".toList
  | .engine => "engine".toList
  | .strategy => "strategy".toList
  | .matching => "matching".toList
  | .maxWorkers => "max_workers".toList
  | .requestTimeout => "request_timeout".toList
  | .maxRetries => "max_retries".toList
  | .retryDelay => "retry_delay".toList
  | .extensions => "extensions".toList
  | .logDirectory => "log_dir".toList

def environmentName : Setting → Text
  | .learnApiUrl => "CODEMOD_LEARN_API_URL".toList
  | .studioUrl => "CODEMOD_STUDIO_URL".toList
  | .engine => "CODEMOD_ENGINE".toList
  | .strategy => "CODEMOD_LEARN_STRATEGY".toList
  | .matching => "CODEMOD_LEARN_MATCHING".toList
  | .maxWorkers => "CODEMOD_LEARN_MAX_WORKERS".toList
  | .requestTimeout => "CODEMOD_LEARN_TIMEOUT".toList
  | .maxRetries => "CODEMOD_LEARN_MAX_RETRIES".toList
  | .retryDelay => "CODEMOD_LEARN_RETRY_DELAY".toList
  | .extensions => "CODEMOD_LEARN_EXTENSIONS".toList
  | .logDirectory => "CODEMOD_LEARN_LOG_DIR".toList

end Setting

structure Layers where
  environment : Environment
  file : Mapping

namespace Layers

def value? (l : Layers) (s : Setting) : Option Value :=
  match l.environment s.environmentName with
  | some t => some (.ofText t)
  | none =>
    match l.file.get? s.key with
    | some (.scalar .null) => none
    | v? => v?

/-- A setting converted, or its built-in value where the layers say nothing. -/
def read {α : Type} (l : Layers) (convert : Value → Except ConversionError α) (builtIn : α)
    (s : Setting) : Except ConversionError α :=
  match l.value? s with
  | some v => convert v
  | none => .ok builtIn

def readText (l : Layers) (builtIn : String) (s : Setting) : Except ConversionError Text :=
  l.read Value.toText builtIn.toList s

end Layers

structure Settings where
  /-- The address of the learning service, without a slash at its end. -/
  learnApiUrl : Text
  studioUrl : Text
  engine : Text
  strategy : Text
  matching : Text
  maxWorkers : Int
  /-- Seconds that one request may take. -/
  requestTimeout : Float
  maxRetries : Int
  /-- Seconds before the second attempt. -/
  retryDelay : Float
  extensions : List Text
  logDirectory : Path

namespace Settings

/-- The settings of the layers, or the first value in the order of the settings that cannot be
converted. -/
def ofLayers (l : Layers) : Except ConversionError Settings := do
  let learnApiUrl ← l.readText "https://backend.codemod.com" .learnApiUrl
  let studioUrl ← l.readText "https://codemod.com/studio" .studioUrl
  let engine ← l.readText "jscodeshift" .engine
  let strategy ← l.readText "hunks" .strategy
  let matching ← l.readText "position" .matching
  let maxWorkers ← l.read Value.toInt 4 .maxWorkers
  let requestTimeout ← l.read Value.toDouble 30.0 .requestTimeout
  let maxRetries ← l.read Value.toInt 3 .maxRetries
  let retryDelay ← l.read Value.toDouble 1.0 .retryDelay
  let extensions ← Extension.ofSetting (l.value? .extensions)
  let logDirectory ← l.readText ".codemod-learn/logs" .logDirectory
  return {
    learnApiUrl := Text.dropEnd (· = '/') learnApiUrl
    studioUrl, engine, strategy, matching, maxWorkers, requestTimeout, maxRetries, retryDelay,
    extensions, logDirectory }

def accepts (s : Settings) (p : Path) : Bool :=
  s.extensions.contains (Text.lower (Path.extension p))

end Settings
end ChangePairs
