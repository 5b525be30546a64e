import Mathlib.Data.List.DropRight
import Polyglot.Proofs.Characters
import Polyglot.Proofs.Description
import Polyglot.Proofs.Reader

/-!
The window of schema versions. The lower bound is a version, and versions are ordered by their epoch
first; the upper bound is on the major number alone. Between a minimum `M.m` and the maximum `M` the
two leave the versions of major number `M` that are not before the minimum, and besides them every
version of a later epoch with a smaller major number.
-/

namespace Polyglot

namespace Version

/-- The version that consists of a release of two numbers. -/
def plain (major minor : Nat) : Version where
  epoch := 0
  release := [major, minor]
  pre := none
  post := none
  dev := none
  build := none

/-- The second number of the release; one that is missing counts as zero. -/
def minor (version : Version) : Nat := version.release.getD 1 0

/-- The version leads to its release and comes before it. -/
def IsPreliminary (version : Version) : Prop :=
  version.pre.isSome = true ∨ (version.post = none ∧ version.dev.isSome = true)

/-! ### Reading a release of two numbers -/

theorem isDigit_toDigits (number : Nat) : ∀ c ∈ Nat.toDigits 10 number, c.isDigit = true :=
  fun _ hc => Nat.isDigit_of_mem_toDigits (by decide) (by decide) hc

theorem numberOf_toDigits (number : Nat) : numberOf (Nat.toDigits 10 number) = number := by
  have hvalue : numberOf (Nat.toDigits 10 number) =
      Nat.ofDigitChars 10 (Nat.toDigits 10 number) 0 := by
    simp only [numberOf, Nat.ofDigitChars_eq_foldl, Nat.mul_comm]
  rw [hvalue, Nat.ofDigitChars_ten_toDigits]

/-- Two numbers with a dot between them are a release, if they do not have too many digits. -/
theorem parse?_plain {major minor : Nat}
    (hmajor : (Nat.toDigits 10 major).length ≤ Numeral.maxDigits)
    (hminor : (Nat.toDigits 10 minor).length ≤ Numeral.maxDigits) :
    parse? (toString major ++ "." ++ toString minor) = some (plain major minor) := by
  have htext : toString major ++ "." ++ toString minor =
      String.ofList (Nat.toDigits 10 major ++ '.' :: Nat.toDigits 10 minor) := by
    rw [← String.toList_inj]
    simp only [Nat.toString_eq_ofList_toDigits, String.toList_append, String.toList_ofList,
      List.append_assoc]
    rfl
  have hread := read?_dotted Nat.toDigits_ne_nil Nat.toDigits_ne_nil (isDigit_toDigits major)
    (isDigit_toDigits minor)
  rw [htext, parse?_eq_some_iff]
  refine parse_eq_ok_iff.mpr ⟨_, hread, fun numeral hnumeral => ?_, ?_⟩
  · have hnumbers : (dotted (Nat.toDigits 10 major) (Nat.toDigits 10 minor)).numbers =
      [[], Nat.toDigits 10 major, Nat.toDigits 10 minor] := rfl
    rw [hnumbers] at hnumeral
    simp only [List.mem_cons, List.not_mem_nil, or_false] at hnumeral
    rcases hnumeral with rfl | rfl | rfl
    · exact Nat.zero_le _
    · exact hmajor
    · exact hminor
  · simp only [plain, dotted, VersionOf.map, List.map_cons, List.map_nil, Option.map_none,
      numberOf_toDigits]
    rfl

/-! ### The order of releases -/

theorem rdropWhile_cons {α : Type} (p : α → Bool) (value : α) (rest : List α) :
    (value :: rest).rdropWhile p =
      if rest.rdropWhile p = [] ∧ p value = true then [] else value :: rest.rdropWhile p := by
  simp only [List.rdropWhile, List.reverse_cons, List.dropWhile_append, List.isEmpty_iff,
    List.reverse_eq_nil_iff]
  by_cases hrest : rest.reverse.dropWhile p = []
  · cases hp : p value <;> simp [hrest, hp]
  · simp [hrest]

/-- Releases without their trailing zeros are in the order of their numbers, position by position,
where a missing number is zero. -/
theorem compareLists_rdropWhile_cons (a b : Nat) (as bs : List Nat) :
    compareLists compare ((a :: as).rdropWhile (· == 0)) ((b :: bs).rdropWhile (· == 0)) =
      (compare a b).then
        (compareLists compare (as.rdropWhile (· == 0)) (bs.rdropWhile (· == 0))) := by
  simp only [rdropWhile_cons, beq_iff_eq]
  generalize as.rdropWhile (· == 0) = as
  generalize bs.rdropWhile (· == 0) = bs
  by_cases hleft : as = [] ∧ a = 0 <;> by_cases hright : bs = [] ∧ b = 0
  · obtain ⟨⟨rfl, rfl⟩, ⟨rfl, rfl⟩⟩ := And.intro hleft hright
    rfl
  · obtain ⟨rfl, rfl⟩ := hleft
    rw [if_pos ⟨rfl, rfl⟩, if_neg hright]
    cases b with
    | zero =>
        obtain ⟨c, rest, rfl⟩ := List.exists_cons_of_ne_nil fun h => hright ⟨h, rfl⟩
        rfl
    | succ b => rfl
  · obtain ⟨rfl, rfl⟩ := hright
    rw [if_neg hleft, if_pos ⟨rfl, rfl⟩]
    cases a with
    | zero =>
        obtain ⟨c, rest, rfl⟩ := List.exists_cons_of_ne_nil fun h => hleft ⟨h, rfl⟩
        rfl
    | succ a => rfl
  · rw [if_neg hleft, if_neg hright]
    rfl

/-- The first two numbers of a release may be taken for zero where they are missing. -/
theorem significant_eq (version : Version) : version.significant =
    (version.major :: version.minor :: version.release.drop 2).rdropWhile (· == 0) := by
  change version.release.rdropWhile (· == 0) = _
  rw [major, minor]
  match version.release with
  | [] => rfl
  | [major] => simp [rdropWhile_cons]
  | major :: minor :: rest => rfl

/-- How the release of a version compares with one of two numbers. -/
theorem compareLists_significant_plain (version : Version) (major minor : Nat) :
    compareLists compare version.significant (plain major minor).significant =
      (compare version.major major).then ((compare version.minor minor).then
        (if ∀ number ∈ version.release.drop 2, number = 0 then .eq else .gt)) := by
  have hplain : (plain major minor).significant = [major, minor].rdropWhile (· == 0) := rfl
  rw [significant_eq version, hplain, compareLists_rdropWhile_cons, compareLists_rdropWhile_cons]
  congr 2
  split
  · rename_i hzeros
    have hnil : (version.release.drop 2).rdropWhile (· == 0) = [] :=
      List.rdropWhile_eq_nil_iff.mpr fun number hnumber => beq_iff_eq.mpr (hzeros number hnumber)
    rw [hnil]
    rfl
  · rename_i hzeros
    have hne : (version.release.drop 2).rdropWhile (· == 0) ≠ [] := fun hnil =>
      hzeros fun number hnumber =>
        beq_iff_eq.mp (List.rdropWhile_eq_nil_iff.mp hnil number hnumber)
    obtain ⟨number, rest, hcons⟩ := List.exists_cons_of_ne_nil hne
    rw [hcons]
    rfl

/-- The order of the versions of one release. -/
def compareParts (a b : Version) : Ordering :=
  (comparePairs a.phase b.phase).then <|
  (compare a.postKey b.postKey).then <|
  (comparePairs a.devKey b.devKey).then <|
  compareBuilds a.build b.build

theorem order_eq (a b : Version) : order a b = (compare a.epoch b.epoch).then
    ((compareLists compare a.significant b.significant).then (compareParts a b)) := rfl

/-- Of the versions of a release, the preliminary ones are those before it. -/
theorem compareParts_plain_eq_lt_iff (version : Version) (major minor : Nat) :
    compareParts version (plain major minor) = .lt ↔ version.IsPreliminary := by
  obtain ⟨epoch, release, pre, post, dev, build⟩ := version
  match pre, post, dev with
  | some (stage, number), post, dev =>
      have hphase : comparePairs (1 + stage.rank, number) (4, 0) = .lt := by cases stage <;> rfl
      refine iff_of_true ?_ (Or.inl rfl)
      exact congrArg (Ordering.then · _) hphase
  | none, none, some number => exact iff_of_true rfl (Or.inr ⟨rfl, rfl⟩)
  | none, some number, dev =>
      refine iff_of_false (fun h => ?_) ?_
      · cases (show Ordering.gt = .lt from h)
      · rintro (hpre | ⟨hpost, -⟩)
        · cases hpre
        · cases hpost
  | none, none, none =>
      refine iff_of_false (fun h => ?_) ?_
      · cases build with
        | none => cases (show Ordering.eq = .lt from h)
        | some segments => cases (show Ordering.gt = .lt from h)
      · rintro (hpre | ⟨-, hdev⟩)
        · cases hpre
        · cases hdev

/-- Which versions come before a release of two numbers. -/
theorem before_plain_iff (version : Version) (major minor : Nat) :
    version.before (plain major minor) = true ↔ version.epoch = 0 ∧
      (version.major < major ∨ (version.major = major ∧ (version.minor < minor ∨
        (version.minor = minor ∧ (∀ number ∈ version.release.drop 2, number = 0) ∧
          version.IsPreliminary)))) := by
  have hepoch : (plain major minor).epoch = 0 := rfl
  have hzeros {p : Prop} [Decidable p] :
      ((if p then Ordering.eq else .gt) = .eq ↔ p) ∧ (if p then Ordering.eq else .gt) ≠ .lt := by
    split
    · rename_i hp
      exact ⟨iff_of_true rfl hp, nofun⟩
    · rename_i hp
      exact ⟨iff_of_false nofun hp, nofun⟩
  rw [before, beq_iff_eq, order_eq, compareLists_significant_plain, hepoch]
  simp only [Ordering.then_eq_lt, Ordering.then_eq_eq, Nat.compare_eq_lt, Nat.compare_eq_eq,
    compareParts_plain_eq_lt_iff, hzeros, Nat.not_lt_zero]
  tauto

/-- An epoch puts a version behind every release, whatever its numbers are. -/
theorem before_plain_of_epoch {version : Version} (h : 0 < version.epoch) (major minor : Nat) :
    version.before (plain major minor) = false := by
  rw [Bool.eq_false_iff, ne_eq, before_plain_iff]
  exact fun hbefore => h.ne' hbefore.1

/-- Without one, the major number decides first. -/
theorem major_le_of_not_before {version : Version} {major minor : Nat} (h : version.epoch = 0)
    (hbefore : version.before (plain major minor) = false) : major ≤ version.major := by
  by_contra hmajor
  rw [Bool.eq_false_iff, ne_eq, before_plain_iff] at hbefore
  exact hbefore ⟨h, Or.inl (Nat.lt_of_not_le hmajor)⟩

/-- Between a release and the end of its major number there are the versions of this number, and
those that an epoch puts there. -/
theorem between_iff {version : Version} {major minor : Nat} :
    (version.before (plain major minor) = false ∧ version.major ≤ major) ↔
      (version.before (plain major minor) = false ∧ version.major = major) ∨
        (0 < version.epoch ∧ version.major < major) := by
  constructor
  · intro h
    obtain ⟨hbefore, hmajor⟩ := h
    rcases hmajor.eq_or_lt with heq | hlt
    · exact Or.inl ⟨hbefore, heq⟩
    · refine Or.inr ⟨Nat.pos_of_ne_zero fun hepoch => ?_, hlt⟩
      exact absurd (major_le_of_not_before hepoch hbefore) (Nat.not_le_of_lt hlt)
  · intro h
    rcases h with ⟨hbefore, hmajor⟩ | ⟨hepoch, hmajor⟩
    · exact ⟨hbefore, hmajor.le⟩
    · exact ⟨before_plain_of_epoch hepoch major minor, hmajor.le⟩

end Version

namespace Catalog

/-- With a release of the highest accepted major number for the minimum, two kinds of versions are
accepted: those of this major number that are not before the minimum, which are the window that is
meant, and those of a later epoch with a smaller major number. A version that has a number with too
many digits is neither accepted nor refused like the others: the first of these numbers is what the
check fails with. -/
theorem checkVersion_window {config : Config} {major minor : Nat} (locale : String)
    (declared : Option String)
    (hminimum : Version.parse? config.minVersion = some (.plain major minor))
    (hmaximum : config.maxMajor = major) :
    (checkVersion config locale declared = .ok () ↔
      ∃ text written version, declared = some text ∧ Version.read? text = some written ∧
        Version.Convertible written ∧ version = written.map Version.numberOf ∧
        ((Version.before version (.plain major minor) = false ∧ Version.major version = major) ∨
          (0 < version.epoch ∧ Version.major version < major))) ∧
    ∀ fault, checkVersion config locale declared = .error (.version fault) ↔
      ∃ text written digits, declared = some text ∧ Version.read? text = some written ∧
        Version.StopsAt written digits ∧ fault = .oversized digits := by
  have hbounds (version : Version) : (version.major : Int) ≤ config.maxMajor ↔
      version.major ≤ major := by rw [hmaximum, Int.ofNat_le]
  refine ⟨?_, fun fault => ?_⟩
  · rw [checkVersion_eq_ok_iff]
    constructor
    · intro h
      obtain ⟨text, version, minimum, htext, hversion, hparsed, hbefore, hmajor⟩ := h
      obtain rfl := Option.some.inj (hminimum.symm.trans hparsed)
      obtain ⟨written, hread, hconvertible, heq⟩ :=
        Version.parse_eq_ok_iff.mp (Version.parse?_eq_some_iff.mp hversion)
      exact ⟨text, written, version, htext, hread, hconvertible, heq,
        Version.between_iff.mp ⟨hbefore, (hbounds version).mp hmajor⟩⟩
    · intro h
      obtain ⟨text, written, version, htext, hread, hconvertible, heq, haccepted⟩ := h
      obtain ⟨hbefore, hmajor⟩ := Version.between_iff.mpr haccepted
      have hversion : Version.parse? text = some version := Version.parse?_eq_some_iff.mpr
        (Version.parse_eq_ok_iff.mpr ⟨written, hread, hconvertible, heq⟩)
      exact ⟨text, version, _, htext, hversion, hminimum, hbefore, (hbounds version).mpr hmajor⟩
  · rw [checkVersion_eq_version_iff (hminimum ▸ rfl)]
    constructor
    · intro h
      obtain ⟨digits, rfl, text, htext, hoversized⟩ := h
      obtain ⟨written, hread, hstops⟩ := Version.parse_eq_oversized_iff.mp hoversized
      exact ⟨text, written, digits, htext, hread, hstops, rfl⟩
    · intro h
      obtain ⟨text, written, digits, htext, hread, hstops, rfl⟩ := h
      exact ⟨digits, rfl, text, htext,
        Version.parse_eq_oversized_iff.mpr ⟨written, hread, hstops⟩⟩

theorem parse?_minVersion_standard :
    Version.parse? Config.standard.minVersion = some (.plain 2 0) := by
  have hwritten : Config.standard.minVersion = toString 2 ++ "." ++ toString 0 := by decide +kernel
  rw [hwritten]
  exact Version.parse?_plain (by decide) (by decide)

theorem checkVersion_window_epoch :
    Version.parse? Config.standard.minVersion = some (.plain 2 0) ∧
      Config.standard.maxMajor = (2 : Nat) ∧
      checkVersion .standard "ru_RU" (some "1!1.0") = .ok () ∧
      checkVersion .standard "ru_RU" (some (Version.zeros 4301)) =
        .error (.version (.oversized 4301)) := by
  have hread : Version.read? "1!1.0" = some { Version.dotted ['1'] ['0'] with epoch := ['1'] } := by
    decide +kernel
  have hzeros := Version.parse_zeros (show Numeral.maxDigits < 4301 by decide)
  obtain ⟨written, hwritten, hstops⟩ := Version.parse_eq_oversized_iff.mp hzeros
  refine ⟨parse?_minVersion_standard, rfl, ?_, ?_⟩
  · exact (checkVersion_window "ru_RU" _ parse?_minVersion_standard rfl).1.mpr
      ⟨"1!1.0", _, _, rfl, hread, by decide, rfl, Or.inr ⟨by decide, by decide⟩⟩
  · exact ((checkVersion_window "ru_RU" _ parse?_minVersion_standard rfl).2 _).mpr
      ⟨_, written, 4301, rfl, hwritten, hstops, rfl⟩

/-- A version of major number 1 in a later epoch is not outside of the window from 2.0 on. -/
theorem not_window_epoch :
    Version.parse? Config.standard.minVersion = some (.plain 2 0) ∧
      Config.standard.maxMajor = (2 : Nat) ∧
      ¬(checkVersion .standard "ru_RU" (some "1!1.0") = .ok () ↔
        ∃ version, Version.parse? "1!1.0" = some version ∧
          version.before (.plain 2 0) = false ∧ version.major = 2) := by
  have hparse : Version.parse? "1!1.0" = some { Version.plain 1 0 with epoch := 1 } := by
    decide +kernel
  have haccepted : checkVersion .standard "ru_RU" (some "1!1.0") = .ok () := by decide +kernel
  refine ⟨parse?_minVersion_standard, rfl, fun hclaim => ?_⟩
  obtain ⟨version, hversion, -, hmajor⟩ := hclaim.mp haccepted
  obtain rfl := Option.some.inj (hparse.symm.trans hversion)
  cases hmajor

end Catalog
end Polyglot
