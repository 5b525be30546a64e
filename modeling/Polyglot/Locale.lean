import Polyglot.Locale.Code

/-!
Locales. The code identifies a locale; the display name is for presentation only.
-/

namespace Polyglot

structure Locale where
  code : String
  displayName : String := ""
  deriving DecidableEq, Repr, Inhabited

namespace Locale

/-- Two locales are the same when their codes are. -/
def same (a b : Locale) : Bool := a.code == b.code

def language (locale : Locale) : String := languageOf locale.code

end Locale
end Polyglot
