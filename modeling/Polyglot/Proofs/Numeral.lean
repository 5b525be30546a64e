import Polyglot.Proofs.Characters
import Polyglot.Proofs.Reader
import Polyglot.Version

/-!
How versions are converted. A text is a version when it can be read and none of its numbers has too
many digits; otherwise the first of these numbers is what conversion fails with. A release of two
numbers is read whatever their digits are.
-/

namespace Polyglot.Version

/-! ### Conversion -/

theorem parse?_eq_some_iff {text : String} {version : Version} :
    parse? text = some version ↔ parse text = .ok version := by
  rw [parse?]
  cases parse text with
  | error fault => exact iff_of_false (fun h => nomatch h) fun h => nomatch h
  | ok other => rw [Except.toOption, Option.some.injEq, Except.ok.injEq]

/-- All numbers can be converted. -/
def Convertible (written : VersionOf Numeral) : Prop :=
  ∀ numeral ∈ written.numbers, numeral.length ≤ Numeral.maxDigits

instance : DecidablePred Convertible := fun written =>
  inferInstanceAs (Decidable (∀ numeral ∈ written.numbers, numeral.length ≤ Numeral.maxDigits))

/-- The first number that cannot be converted has this number of digits. -/
def StopsAt (written : VersionOf Numeral) (digits : Nat) : Prop :=
  ∃ before numeral after, written.numbers = before ++ numeral :: after ∧
    (∀ other ∈ before, other.length ≤ Numeral.maxDigits) ∧
    Numeral.maxDigits < numeral.length ∧ numeral.length = digits

theorem isOversized_iff {numeral : Numeral} :
    numeral.isOversized = true ↔ Numeral.maxDigits < numeral.length :=
  decide_eq_true_iff

theorem convertible_iff {written : VersionOf Numeral} :
    Convertible written ↔ written.numbers.find? Numeral.isOversized = none := by
  rw [List.find?_eq_none]
  refine forall₂_congr fun numeral _ => ?_
  rw [isOversized_iff, Nat.not_lt]

theorem stopsAt_iff {written : VersionOf Numeral} {digits : Nat} :
    StopsAt written digits ↔ ∃ numeral,
      written.numbers.find? Numeral.isOversized = some numeral ∧ numeral.length = digits := by
  constructor
  · intro h
    obtain ⟨before, numeral, after, hnumbers, hbefore, hlong, hdigits⟩ := h
    refine ⟨numeral, List.find?_eq_some_iff_append.mpr
      ⟨isOversized_iff.mpr hlong, before, after, hnumbers, fun other hother => ?_⟩, hdigits⟩
    rw [Bool.not_eq_true', ← Bool.not_eq_true, isOversized_iff, Nat.not_lt]
    exact hbefore other hother
  · intro h
    obtain ⟨numeral, hfirst, hdigits⟩ := h
    obtain ⟨hlong, before, after, hnumbers, hbefore⟩ := List.find?_eq_some_iff_append.mp hfirst
    refine ⟨before, numeral, after, hnumbers, fun other hother => ?_, isOversized_iff.mp hlong,
      hdigits⟩
    rw [← Nat.not_lt, ← isOversized_iff, Bool.not_eq_true, ← Bool.not_eq_true']
    exact hbefore other hother

/-- A text is a version if it can be read and all its numbers can be converted. -/
theorem parse_eq_ok_iff {text : String} {version : Version} :
    parse text = .ok version ↔ ∃ written, read? text = some written ∧ Convertible written ∧
      version = written.map numberOf := by
  rw [parse]
  cases read? text with
  | none => simp
  | some written =>
      simp only [Option.some.injEq, exists_eq_left', convertible_iff, convert]
      cases written.numbers.find? Numeral.isOversized with
      | none => simp [eq_comm]
      | some numeral => simp

/-- A text that can be read comes to the first of its numbers that cannot be converted. -/
theorem parse_eq_oversized_iff {text : String} {digits : Nat} :
    parse text = .error (.oversized digits) ↔
      ∃ written, read? text = some written ∧ StopsAt written digits := by
  rw [parse]
  cases read? text with
  | none => simp
  | some written =>
      simp only [Option.some.injEq, exists_eq_left', stopsAt_iff, convert]
      cases written.numbers.find? Numeral.isOversized with
      | none => simp
      | some numeral => simp

/-! ### Reading a release of two numbers -/

/-- A release of two numbers, as it is written. -/
def dotted (major minor : Numeral) : VersionOf Numeral where
  epoch := []
  release := [major, minor]
  pre := none
  post := none
  dev := none
  build := none

/-- The characters of a release are no white space, and no letters. -/
theorem plain_of_isDigit {c : Char} (h : c.isDigit = true ∨ c = '.') :
    Text.isBlank c = false ∧ c.toLower = c := by
  rcases h with hdigit | rfl
  · have hascii := ascii_of_isDigit hdigit
    revert hdigit
    refine of_ascii (P := fun c => c.isDigit = true → Text.isBlank c = false ∧ c.toLower = c) ?_
      hascii
    decide +kernel
  · decide

theorem number?_append {digits rest : List Char} (hne : digits ≠ [])
    (hdigits : ∀ c ∈ digits, c.isDigit = true) (hrest : ∀ c ∈ rest.head?, c.isDigit = false) :
    number? (digits ++ rest) = some (digits, rest) := by
  obtain ⟨htaken, hleft⟩ := Text.Reader.span_append hdigits hrest
  unfold number?
  rw [htaken, hleft]
  split
  · exact absurd rfl hne
  · rfl

theorem skipLetter_append {digits : List Char} (hne : digits ≠ [])
    (hdigits : ∀ c ∈ digits, c.isDigit = true) (rest : List Char) :
    skipLetter (digits ++ rest) = digits ++ rest := by
  obtain ⟨c, others, rfl⟩ := List.exists_cons_of_ne_nil hne
  have hc : c.isDigit = true := hdigits c List.mem_cons_self
  rw [List.cons_append]
  unfold skipLetter
  split
  · rename_i heq
    obtain rfl : c = 'v' := (List.cons.inj heq).1
    cases hc
  · rfl

/-- Two numbers with a dot between them are read as a release. -/
theorem read?_dotted {major minor : List Char} (hmajor : major ≠ []) (hminor : minor ≠ [])
    (hdigits : ∀ c ∈ major, c.isDigit = true) (hdigits' : ∀ c ∈ minor, c.isDigit = true) :
    read? (String.ofList (major ++ '.' :: minor)) = some (dotted major minor) := by
  have hplain : ∀ c ∈ major ++ '.' :: minor, Text.isBlank c = false ∧ c.toLower = c := by
    intro c hc
    rcases List.mem_append.mp hc with hc | hc
    · exact plain_of_isDigit (Or.inl (hdigits c hc))
    · exact plain_of_isDigit ((List.mem_cons.mp hc).symm.imp_left (hdigits' c))
  have htrim : Text.trim (major ++ '.' :: minor) = major ++ '.' :: minor := by
    have h := Text.trim_append (fun c hc => absurd hc List.not_mem_nil)
      (fun c hc => absurd hc List.not_mem_nil) (List.append_ne_nil_of_left_ne_nil hmajor _)
      fun c hc => (hplain c hc).1
    rwa [List.append_nil, List.nil_append] at h
  have hlower : (major ++ '.' :: minor).map Char.toLower = major ++ '.' :: minor :=
    (List.map_congr_left fun c hc => (hplain c hc).2).trans (List.map_id' _)
  have hfirst : number? (major ++ '.' :: minor) = some (major, '.' :: minor) := by
    refine number?_append hmajor hdigits fun c hc => ?_
    obtain rfl : '.' = c := Option.some.inj hc
    rfl
  have hsecond : number? minor = some (minor, []) := by
    have h := @number?_append minor [] hminor hdigits' fun c hc => nomatch hc
    rwa [List.append_nil] at h
  have hepoch : readEpoch (major ++ '.' :: minor) = ([], major ++ '.' :: minor) := by
    simp [readEpoch, hfirst]
  have hrelease : readRelease? (major ++ '.' :: minor) = some ([major, minor], []) := by
    simp only [readRelease?, hfirst, List.length_cons, readNumbers, hsecond]
    cases minor.length <;> rfl
  simp only [read?, String.toList_ofList, htrim, hlower, skipLetter_append hmajor hdigits, hepoch,
    hrelease]
  rfl

/-- The release whose second number is zero, written with a number of digits. -/
def zeros (digits : Nat) : String :=
  String.ofList ('2' :: '.' :: List.replicate digits '0')

theorem parse_zeros {digits : Nat} (h : Numeral.maxDigits < digits) :
    parse (zeros digits) = .error (.oversized digits) := by
  have hread : read? (String.ofList (['2'] ++ '.' :: List.replicate digits '0')) =
      some (dotted ['2'] (List.replicate digits '0')) := by
    refine read?_dotted (by simp) ?_ (List.all_eq_true.mp rfl) fun c hc => ?_
    · intro hnil
      rw [List.replicate_eq_nil_iff] at hnil
      omega
    · rw [List.eq_of_mem_replicate hc]
      rfl
  refine parse_eq_oversized_iff.mpr ⟨_, hread, [[], ['2']], List.replicate digits '0', [], rfl,
    by decide, ?_, List.length_replicate⟩
  rwa [List.length_replicate]

end Polyglot.Version
