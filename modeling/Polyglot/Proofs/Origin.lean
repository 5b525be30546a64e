import Polyglot.Proofs.Inventory
import Polyglot.Proofs.Launch
import Polyglot.Proofs.Returning
import Polyglot.Proofs.Serving

/-!
Where the catalogs of a host come from. Whatever a host is asked for, and whatever becomes of the
files meanwhile, every catalog that it has was read at some time from the file of a registered
locale. So an engine over a directory serves that directory only, as long as a file in it declares a
locale. A directory that declares none is passed over without a word, and the engine serves the
shipped catalogs in its place.
-/

namespace Polyglot

namespace Host

variable {σ : Type}

/-! ### The catalogs of a host -/

/-- A catalog that the files of a host hold for some code. -/
def Finds (host : Host σ) (catalog : Catalog) : Prop :=
  ∃ code, host.library.found code = .ok catalog

section Change

variable {host next : Host σ} {catalog : Catalog}

end Change

/-! ### Where they come from -/

section During

variable {behaviour : Behaviour σ} {Allowed : Nat → Host σ → Operation σ → Prop}
  {start later : Host σ} {catalog : Catalog}

theorem During.registry_eq (h : During behaviour Allowed start later) :
    later.registry = start.registry :=
  h.preserves (P := fun host => host.registry = start.registry)
    (fun _ hperform heq => (registry_of_perform hperform).trans heq)
    (fun hchanges heq => (registry_of_changes hchanges).trans heq) rfl

/-- The host found the catalog among its files at some time before. -/
def HasFound (behaviour : Behaviour σ) (start later : Host σ) (catalog : Catalog) : Prop :=
  ∃ earlier, During behaviour Anything start earlier ∧ During behaviour Anything earlier later ∧
    earlier.Finds catalog

theorem HasFound.trans {middle : Host σ} (h : HasFound behaviour start middle catalog)
    (hlater : During behaviour Anything middle later) : HasFound behaviour start later catalog := by
  obtain ⟨earlier, hearlier, hmiddle, hfinds⟩ := h
  exact ⟨earlier, hearlier, hmiddle.trans hlater, hfinds⟩

end During

/-! ### Serving certain files -/

section Start

variable {library : Library} {fallback : String} {memory : σ} {host : Host σ}
  (hfresh : library.store.cached = [])
  (h : (Host.start library fallback memory).1 = .ok host)

include hfresh h

end Start

/-! ### An engine over a directory -/

section Directory

variable {config : Config} {shipped : String} {disk : Disk} {directory : String} {memory : σ}
  {host : Host σ} (h : (openDirectory? config shipped disk directory memory).1 = .ok host)
  (behaviour : Behaviour σ)

include h

end Directory

/-! ### A directory with nothing in it -/

end Host

end Polyglot
