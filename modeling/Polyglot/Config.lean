/-!
What is configurable: the locale that every other one falls back to, how catalog files are named,
which schema versions are accepted, and the locales that are known by name.
-/

namespace Polyglot

structure Config where
  fallback : String := "en_US"
  filePrefix : String := "veil_"
  fileSuffix : String := ".ts"
  minVersion : String := "2.0"
  maxMajor : Int := 2
  known : List (String × String) := [("en_US", "English"), ("ru_RU", "Русский"), ("zh_CN", "中文")]
  deriving DecidableEq, Repr, Inhabited

def Config.standard : Config := {}

end Polyglot
