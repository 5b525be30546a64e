import Polyglot.Proofs.Serving

/-!
What the reports of an audit say. There is one for every locale of the directory, in its order, and
it either names the error that keeps the catalog from being loaded or accounts for every key: those
that the base has and the catalog lacks, those that the catalog has beyond the base, and those
without a translation.
-/

namespace Polyglot

namespace Catalog

end Catalog

namespace Audit

open Library

/-- A directory with a single catalog. -/
def oneCatalog (bytes : ByteArray) : Disk := [
  ("lang", .directory), ("lang/veil_ru.ts", .file bytes)]

end Audit

end Polyglot
