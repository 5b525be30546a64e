import Polyglot.LogLevel

/-!
Loggers. They form a tree by the dots in their names, under a root logger. A line that is important
enough goes to the handlers of its logger and of the loggers above it, as far as they pass lines on.
The engine's loggers can be routed to a handler of their own, which leaves the root logger alone.
-/

namespace Polyglot

/-- Where lines go: to a stream, or nowhere. -/
structure Handler where
  name : Option String := none
  level : Int := 0
  stream : Option String := none
  deriving DecidableEq, Repr

/-- A logger. Level zero stands for the level of the logger above. -/
structure Logger where
  level : Int := 0
  propagates : Bool := true
  handlers : List Handler := []
  deriving DecidableEq, Repr

/-- The loggers by name, apart from the root logger, and what the streams hold. -/
structure Logging where
  root : Logger
  loggers : Table Logger
  streams : Table String
  deriving DecidableEq, Repr

namespace Logging

/-- The packages of the engine, whose loggers stand above those of its parts. -/
def engineLoggers : List String := ["core", "utils"]

/-- The name of the handler that the engine's lines are routed to. -/
def handlerName : String := "veil-i18n"

/-- A root logger that writes to the stream `root`, and untouched loggers of the engine. -/
def initial : Logging where
  root :=
    { level := LogLevel.standard, propagates := false, handlers := [{ stream := some "root" }] }
  loggers := engineLoggers.map (·, {})
  streams := [("root", "")]

/-! ### The tree -/

/-- The root logger has two names. -/
def isRoot (name : String) : Bool := name == "" || name == "root"

/-- The names of the loggers above one, the nearest first; the letters of the name come last to
first. A part of a name between dots is not empty. -/
def above : List Char → List (List Char)
  | [] => []
  | '.' :: c :: rest => (c :: rest).reverse :: above rest
  | _ :: rest => above rest

/-- The loggers from one up to the root. A logger that nobody has touched passes everything on. -/
def chain (logging : Logging) (name : String) : List Logger :=
  let names := if isRoot name then [] else name :: (above name.toList.reverse).map String.ofList
  names.filterMap logging.loggers.get? ++ [logging.root]

/-- The level that holds for a logger: the first that is not zero on the way to the root. -/
def effectiveLevel (chain : List Logger) : Int :=
  ((chain.map Logger.level).find? (· != 0)).getD 0

/-- The handlers that a line reaches on its way to the root. -/
def reached : List Logger → List Handler
  | [] => []
  | logger :: rest => logger.handlers ++ if logger.propagates then reached rest else []

/-! ### Lines -/

def line (name : String) (level : Int) (message : String) : String :=
  LogLevel.name level ++ ":" ++ (if isRoot name then "root" else name) ++ ":" ++ message ++ "\n"

def write (logging : Logging) (stream text : String) : Logging :=
  let held := (logging.streams.get? stream).getD ""
  { logging with streams := logging.streams.put stream (held ++ text) }

/-- Logs a message. A level that is not positive is never important enough. -/
def log (logging : Logging) (name : String) (level : Int) (message : String) : Logging :=
  let chain := logging.chain name
  if level ≤ 0 ∨ level < effectiveLevel chain then logging
  else
    let streams := ((reached chain).filter (·.level ≤ level)).filterMap Handler.stream
    streams.foldl (fun logging stream => logging.write stream (line name level message)) logging

/-! ### Handlers -/

def modify (logging : Logging) (name : String) (change : Logger → Logger) : Logging :=
  if isRoot name then { logging with root := change logging.root }
  else
    let logger := (logging.loggers.get? name).getD {}
    { logging with loggers := logging.loggers.put name (change logger) }

def addHandler (logging : Logging) (name : String) (handler : Handler) : Logging :=
  logging.modify name fun logger => { logger with handlers := logger.handlers ++ [handler] }

/-- Makes a handler the only one of its name on a logger, and keeps the lines from going further. -/
def route (handler : Handler) (logger : Logger) : Logger where
  level := handler.level
  propagates := false
  handlers := logger.handlers.filter (·.name != handler.name) ++ [handler]

/-- Routes the lines of the engine to a stream, from a level on. The stream is there even if the
level is refused. -/
def configure (logging : Logging) (request : LevelRequest) (stream : String) :
    Except LevelError Handler × Logging :=
  let logging := logging.write stream ""
  match LogLevel.resolve request with
  | .error error => (.error error, logging)
  | .ok level =>
    let handler := { name := some handlerName, level, stream := some stream : Handler }
    (.ok handler, engineLoggers.foldl (·.modify · (route handler)) logging)

end Logging
end Polyglot
