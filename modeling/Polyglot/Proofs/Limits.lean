import Polyglot.Json
import Polyglot.Proofs.Reader

/-!
What limits do to the reading of JSON. A document that can be read at all is a value, and it is read
within other limits just when the value is within them; otherwise reading comes to a limit, and does
not take the document for malformed. A reader under narrow limits is compared with the same reader
under wide ones, from the numbers to the whole document.
-/

namespace Polyglot.Json

open Text Reader

/-! ### Values within limits -/

/-- The whole numbers of a value have no more digits than are converted, and its lists and objects
are nested no deeper than a depth. -/
def Fits (digits : Nat) : Nat → Json → Prop
  | _, .whole value => (Nat.toDigits 10 value.natAbs).length ≤ digits
  | 0, .list _ | 0, .object _ => False
  | depth + 1, .list items => ∀ item ∈ items, item.Fits digits depth
  | depth + 1, .object fields => ∀ field ∈ fields, field.2.Fits digits depth
  | _, _ => True

def Within (json : Json) (limits : Limits) : Prop := json.Fits limits.digits limits.depth

/-! ### Numbers as they are written -/

theorem digitValue_lt {c : Char} (h : c.isDigit = true) : digitValue c < 10 := by
  simp only [Char.isDigit, Bool.and_eq_true, decide_eq_true_eq] at h
  have hnine : c.toNat ≤ '9'.toNat := h.2
  simp only [digitValue]
  have hlast : '9'.toNat = 57 := rfl
  have hfirst : '0'.toNat = 48 := rfl
  omega

theorem digitValue_pos {c : Char} (h : c.isDigit = true) (hne : c ≠ '0') : 0 < digitValue c := by
  simp only [Char.isDigit, Bool.and_eq_true, decide_eq_true_eq] at h
  have hzero : '0'.toNat ≤ c.toNat := h.1
  have hdistinct : c.toNat ≠ '0'.toNat := fun heq => hne (Char.toNat_inj.mp heq)
  simp only [digitValue]
  omega

/-- Behind a number that is not zero every digit makes a number one digit longer. -/
theorem length_toDigits_foldl {digits : List Char} (h : ∀ c ∈ digits, c.isDigit = true)
    {value : Nat} (hvalue : 0 < value) :
    (Nat.toDigits 10 (digits.foldl (fun value c => value * 10 + digitValue c) value)).length =
      (Nat.toDigits 10 value).length + digits.length := by
  induction digits generalizing value with
  | nil => rfl
  | cons c rest ih =>
      have hc := digitValue_lt (h c List.mem_cons_self)
      have hstep : Nat.toDigits 10 (value * 10 + digitValue c) =
          Nat.toDigits 10 value ++ Nat.toDigits 10 (digitValue c) := by
        rw [Nat.mul_comm, Nat.toDigits_append_toDigits (by decide) hvalue hc]
      rw [List.foldl_cons, ih (fun d hd => h d (List.mem_cons_of_mem c hd)) (by omega), hstep,
        List.length_append, Nat.toDigits_of_lt_base hc, List.length_singleton, List.length_cons]
      omega

/-- A number as it is written before a fraction: no zero stands in front. -/
def IsCanonical (numeral : Numeral) : Prop :=
  numeral = ['0'] ∨ ∃ c rest, numeral = c :: rest ∧ c.isDigit = true ∧ c ≠ '0' ∧
    ∀ d ∈ rest, d.isDigit = true

theorem IsCanonical.length_toDigits {numeral : Numeral} (h : IsCanonical numeral) :
    (Nat.toDigits 10 (number 10 digitValue numeral)).length = numeral.length := by
  rcases h with rfl | ⟨c, rest, rfl, hc, hne, hrest⟩
  · rfl
  · have hfirst : number 10 digitValue (c :: rest) =
        rest.foldl (fun value c => value * 10 + digitValue c) (digitValue c) := by
      rw [number, List.foldl_cons, Nat.zero_mul, Nat.zero_add]
    rw [hfirst, length_toDigits_foldl hrest (digitValue_pos hc hne),
      Nat.toDigits_of_lt_base (digitValue_lt hc), List.length_singleton, List.length_cons]
    omega

theorem canonical_of_readWhole {text rest : List Char} {whole : Numeral}
    (h : readWhole text = some (whole, rest)) : IsCanonical whole := by
  cases text with
  | nil => cases h
  | cons c others =>
      by_cases hzero : c = '0'
      · subst hzero
        rw [readWhole, bind_of_eq (accept_one '0' others)] at h
        cases h
        exact Or.inl rfl
      · rw [readWhole, bind_of_eq (accept_of_head_ne (Ne.symm hzero) [] others)] at h
        simp only [Bool.false_eq_true, if_false, run1] at h
        obtain ⟨⟨first, middle⟩, hfirst, hmore⟩ := Option.bind_eq_some_iff.mp h
        obtain ⟨hdigit, heq⟩ := Option.ite_none_right_eq_some.mp hfirst
        cases heq
        cases hmore
        exact Or.inr ⟨c, _, rfl, hdigit, hzero, List.all_eq_true.mp List.all_takeWhile⟩

theorem ofReader_eq_ok_iff {α : Type} {reader : Reader α} {text rest : List Char} {value : α} :
    ofReader reader text = .ok (value, rest) ↔ reader text = some (value, rest) := by
  rw [ofReader]
  cases reader text with
  | none => exact iff_of_false (fun h => nomatch h) fun h => nomatch h
  | some taken => rw [Except.ok.injEq, Option.some.injEq]

theorem canonical_of_readLiteral {negative : Bool} {text rest : List Char} {literal : Literal}
    (h : readLiteral negative text = some (literal, rest)) : IsCanonical literal.whole := by
  obtain ⟨⟨whole, afterWhole⟩, hwhole, h⟩ := Option.bind_eq_some_iff.mp h
  obtain ⟨⟨fraction, afterFraction⟩, -, h⟩ := Option.bind_eq_some_iff.mp h
  obtain ⟨⟨exponent, afterExponent⟩, -, h⟩ := Option.bind_eq_some_iff.mp h
  cases h
  exact canonical_of_readWhole hwhole

/-! ### Readers under narrow and under wide limits -/

section Follows

variable {α β : Type} {P : α → Prop} {Q : β → Prop}

theorem bind_of_ok {scanner : Scanner α} {text middle : List Char} {value : α}
    (h : scanner text = .ok (value, middle)) (next : α → Scanner β) :
    (scanner >>= next) text = next value middle := by
  simp only [bind, StateT.bind, Except.bind, h]

theorem bind_of_error {scanner : Scanner α} {text : List Char} {fault : Fault}
    (h : scanner text = .error fault) (next : α → Scanner β) :
    (scanner >>= next) text = .error fault := by
  simp only [bind, StateT.bind, Except.bind, h]

theorem bind_eq_ok_iff {scanner : Scanner α} {next : α → Scanner β} {text rest : List Char}
    {result : β} : (scanner >>= next) text = .ok (result, rest) ↔
      ∃ value middle, scanner text = .ok (value, middle) ∧
        next value middle = .ok (result, rest) := by
  constructor
  · intro h
    match hscanner : scanner text with
    | .error fault =>
        rw [bind_of_error hscanner] at h
        cases h
    | .ok (value, middle) =>
        rw [bind_of_ok hscanner] at h
        exact ⟨value, middle, rfl, h⟩
  · intro h
    obtain ⟨value, middle, hscanner, hnext⟩ := h
    rw [bind_of_ok hscanner, hnext]

theorem bind_eq_error_iff {scanner : Scanner α} {next : α → Scanner β} {text : List Char}
    {fault : Fault} : (scanner >>= next) text = .error fault ↔
      scanner text = .error fault ∨
        ∃ value middle, scanner text = .ok (value, middle) ∧ next value middle = .error fault := by
  constructor
  · intro h
    match hscanner : scanner text with
    | .error other =>
        rw [bind_of_error hscanner] at h
        cases h
        exact Or.inl rfl
    | .ok (value, middle) =>
        rw [bind_of_ok hscanner] at h
        exact Or.inr ⟨value, middle, rfl, h⟩
  · intro h
    rcases h with hscanner | ⟨value, middle, hscanner, hnext⟩
    · rw [bind_of_error hscanner]
    · rw [bind_of_ok hscanner, hnext]

/-- A reader under narrow limits follows one under wide limits. It reads the values that satisfy a
condition as the other one does, and no others; and what it takes for malformed the other one does
as well. -/
structure Follows (P : α → Prop) (narrow wide : Scanner α) : Prop where
  reads : ∀ text value rest, narrow text = .ok (value, rest) ↔
    wide text = .ok (value, rest) ∧ P value
  malformed : ∀ text, narrow text = .error .malformed → wide text = .error .malformed

/-- A reader without limits follows itself. -/
theorem Follows.refl {scanner : Scanner α}
    (h : ∀ text value rest, scanner text = .ok (value, rest) → P value) :
    Follows P scanner scanner where
  reads text value rest := ⟨fun hread => ⟨hread, h text value rest hread⟩, And.left⟩
  malformed _ := id

theorem Follows.pure {value : α} (h : P value) :
    Follows P (Pure.pure value : Scanner α) (Pure.pure value) :=
  .refl fun text other rest hread => by
    cases hread
    exact h

/-- A limit is reached where nothing is read that satisfies the condition. -/
theorem Follows.stop {narrow wide : Scanner α} {fault : Fault}
    (hnarrow : ∀ text, narrow text = .error fault) (hfault : fault ≠ .malformed)
    (hwide : ∀ text value rest, wide text = .ok (value, rest) → ¬P value) :
    Follows P narrow wide where
  reads text value rest := by
    rw [hnarrow]
    exact iff_of_false (fun h => nomatch h) fun h => hwide text value rest h.1 h.2
  malformed text h := by
    rw [hnarrow] at h
    cases h
    exact absurd rfl hfault

/-- Readers follow each other step by step, if the first value shows in the result. -/
theorem Follows.bind {narrow wide : Scanner α} {next next' : α → Scanner β}
    (h : Follows P narrow wide) (hnext : ∀ value, P value → Follows Q (next value) (next' value))
    (hshows : ∀ value text result rest, next' value text = .ok (result, rest) → Q result →
      P value) : Follows Q (narrow >>= next) (wide >>= next') where
  reads text result rest := by
    rw [bind_eq_ok_iff, bind_eq_ok_iff]
    constructor
    · intro hread
      obtain ⟨value, middle, hfirst, hsecond⟩ := hread
      obtain ⟨hwide, hvalue⟩ := (h.reads text value middle).mp hfirst
      obtain ⟨hmore, hresult⟩ := ((hnext value hvalue).reads middle result rest).mp hsecond
      exact ⟨⟨value, middle, hwide, hmore⟩, hresult⟩
    · intro hread
      obtain ⟨⟨value, middle, hwide, hmore⟩, hresult⟩ := hread
      have hvalue := hshows value middle result rest hmore hresult
      exact ⟨value, middle, (h.reads text value middle).mpr ⟨hwide, hvalue⟩,
        ((hnext value hvalue).reads middle result rest).mpr ⟨hmore, hresult⟩⟩
  malformed text hrefused := by
    rw [bind_eq_error_iff] at hrefused ⊢
    rcases hrefused with hfirst | ⟨value, middle, hfirst, hsecond⟩
    · exact Or.inl (h.malformed text hfirst)
    · obtain ⟨hwide, hvalue⟩ := (h.reads text value middle).mp hfirst
      exact Or.inr ⟨value, middle, hwide, (hnext value hvalue).malformed middle hsecond⟩

/-- A first step without limits is the same on both sides. -/
theorem Follows.step {scanner : Scanner α} {next next' : α → Scanner β}
    (h : ∀ text value rest, scanner text = .ok (value, rest) →
      Follows Q (next value) (next' value)) :
    Follows Q (scanner >>= next) (scanner >>= next') where
  reads text result rest := by
    rw [bind_eq_ok_iff, bind_eq_ok_iff]
    constructor
    · intro hread
      obtain ⟨value, middle, hfirst, hsecond⟩ := hread
      obtain ⟨hmore, hresult⟩ := ((h text value middle hfirst).reads middle result rest).mp hsecond
      exact ⟨⟨value, middle, hfirst, hmore⟩, hresult⟩
    · intro hread
      obtain ⟨⟨value, middle, hfirst, hmore⟩, hresult⟩ := hread
      exact ⟨value, middle, hfirst,
        ((h text value middle hfirst).reads middle result rest).mpr ⟨hmore, hresult⟩⟩
  malformed text hrefused := by
    rw [bind_eq_error_iff] at hrefused ⊢
    rcases hrefused with hfirst | ⟨value, middle, hfirst, hsecond⟩
    · exact Or.inl hfirst
    · exact Or.inr ⟨value, middle, hfirst, (h text value middle hfirst).malformed middle hsecond⟩

end Follows

/-! ### From numbers to documents -/

theorem ofLiteral_whole (digits : Nat) (negative : Bool) (whole : Numeral) :
    ofLiteral digits ⟨negative, whole, none, none⟩ =
      if digits < whole.length then .error (.oversized whole.length)
      else .ok (.whole (if negative then -number 10 digitValue whole
        else number 10 digitValue whole)) := by
  simp only [ofLiteral, Option.getD_none, List.append_nil]

/-- A number has as many digits as it is written with. -/
theorem IsCanonical.fits_iff {whole : Numeral} (h : IsCanonical whole) (negative : Bool)
    (digits depth : Nat) :
    Fits digits depth (.whole (if negative then -number 10 digitValue whole
      else number 10 digitValue whole)) ↔ whole.length ≤ digits := by
  rw [Fits, ← h.length_toDigits]
  cases negative with
  | false => rw [if_neg Bool.false_ne_true, Int.natAbs_natCast]
  | true => rw [if_pos rfl, Int.natAbs_neg, Int.natAbs_natCast]

/-- Only a whole number comes to the limit of digits. -/
theorem follows_ofLiteral {literal : Literal} (h : IsCanonical literal.whole) {digits wide : Nat}
    (hwide : digits ≤ wide) (depth : Nat) :
    Follows (Fits digits depth) (liftM (ofLiteral digits literal))
      (liftM (ofLiteral wide literal)) := by
  obtain ⟨negative, whole, fraction, exponent⟩ := literal
  match fraction, exponent with
  | none, none =>
      have hfits := h.fits_iff negative digits depth
      rw [ofLiteral_whole, ofLiteral_whole]
      by_cases hlimit : digits < whole.length
      · rw [if_pos hlimit]
        refine .stop (fun text => rfl) (by simp) fun text value rest hread hvalue => ?_
        by_cases hbeyond : wide < whole.length
        · rw [if_pos hbeyond] at hread
          cases hread
        · rw [if_neg hbeyond] at hread
          cases hread
          exact absurd (hfits.mp hvalue) (Nat.not_le_of_lt hlimit)
      · have hfurther : ¬wide < whole.length :=
          Nat.not_lt_of_le (Nat.le_trans (Nat.le_of_not_lt hlimit) hwide)
        rw [if_neg hlimit, if_neg hfurther]
        exact .pure (hfits.mpr (Nat.le_of_not_lt hlimit))
  | some places, exponent => exact .pure (by cases depth <;> trivial)
  | none, some size => exact .pure (by cases depth <;> trivial)

theorem follows_readNumber {digits wide : Nat} (hwide : digits ≤ wide) (depth : Nat) :
    Follows (Fits digits depth) (readNumber digits) (readNumber wide) := by
  refine .step fun _ negative _ _ => .step fun _ infinite _ _ => ?_
  cases infinite with
  | true => exact .pure (by cases depth <;> trivial)
  | false =>
      refine .step fun text literal rest hread => follows_ofLiteral ?_ hwide depth
      exact canonical_of_readLiteral (ofReader_eq_ok_iff.mp hread)

/-- The items read so far are among those read in the end. -/
theorem mem_of_readItems {α : Type} {close : Char} {item : Scanner α} {fuel : List Char}
    {items result : List α} {text rest : List Char}
    (h : readItems close item fuel items text = .ok (result, rest)) {value : α}
    (hvalue : value ∈ items) : value ∈ result := by
  induction fuel generalizing items text with
  | nil =>
      rw [readItems] at h
      obtain ⟨_, _, -, h⟩ := bind_eq_ok_iff.mp h
      obtain ⟨more, _, -, h⟩ := bind_eq_ok_iff.mp h
      cases more with
      | true => cases h
      | false =>
          obtain ⟨_, _, -, h⟩ := bind_eq_ok_iff.mp h
          cases h
          exact List.mem_reverse.mpr hvalue
  | cons c fuel ih =>
      rw [readItems] at h
      obtain ⟨_, _, -, h⟩ := bind_eq_ok_iff.mp h
      obtain ⟨more, _, -, h⟩ := bind_eq_ok_iff.mp h
      cases more with
      | true =>
          obtain ⟨_, _, -, h⟩ := bind_eq_ok_iff.mp h
          obtain ⟨next, _, -, h⟩ := bind_eq_ok_iff.mp h
          exact ih h (List.mem_cons_of_mem next hvalue)
      | false =>
          obtain ⟨_, _, -, h⟩ := bind_eq_ok_iff.mp h
          cases h
          exact List.mem_reverse.mpr hvalue

section Items

variable {α : Type} {P : α → Prop} {narrow wide : Scanner α} (h : Follows P narrow wide)
  (close : Char)

include h

theorem follows_readItems (fuel : List Char) {items : List α} (hitems : ∀ item ∈ items, P item) :
    Follows (fun result => ∀ item ∈ result, P item) (readItems close narrow fuel items)
      (readItems close wide fuel items) := by
  induction fuel generalizing items with
  | nil =>
      rw [readItems, readItems]
      refine .step fun _ _ _ _ => .step fun _ more _ _ => ?_
      cases more with
      | true => exact .refl fun text value rest hread => nomatch hread
      | false =>
          refine .step fun _ _ _ _ => .pure fun item hitem => ?_
          exact hitems item (List.mem_reverse.mp hitem)
  | cons c fuel ih =>
      rw [readItems, readItems]
      refine .step fun _ _ _ _ => .step fun _ more _ _ => ?_
      cases more with
      | true =>
          refine .step fun _ _ _ _ => .bind h (fun value hvalue => ih ?_) ?_
          · exact List.forall_mem_cons.mpr ⟨hvalue, hitems⟩
          · intro value text result rest hread hresult
            exact hresult value (mem_of_readItems hread List.mem_cons_self)
      | false =>
          refine .step fun _ _ _ _ => .pure fun item hitem => ?_
          exact hitems item (List.mem_reverse.mp hitem)

theorem follows_readSequence :
    Follows (fun items => ∀ item ∈ items, P item) (readSequence close narrow)
      (readSequence close wide) := by
  refine .step fun _ _ _ _ => .step fun _ closed _ _ => ?_
  cases closed with
  | true => exact .pure fun item hitem => absurd hitem List.not_mem_nil
  | false =>
      refine .bind h (fun value hvalue => .step fun _ left _ _ => ?_) ?_
      · exact follows_readItems h close left (List.forall_mem_singleton.mpr hvalue)
      · intro value text result rest hread hresult
        obtain ⟨left, middle, -, hitems⟩ := bind_eq_ok_iff.mp hread
        exact hresult value (mem_of_readItems hitems (List.mem_singleton_self value))

end Items

theorem follows_readField {P : Json → Prop} {narrow wide : Scanner Json}
    (h : Follows P narrow wide) :
    Follows (fun field => P field.2) (readField narrow) (readField wide) := by
  refine .step fun _ _ _ _ => .step fun _ name _ _ => .step fun _ _ _ _ => .step fun _ _ _ _ =>
    .step fun _ _ _ _ => .bind h (fun value hvalue => .pure hvalue) ?_
  intro value text result rest hread hresult
  cases hread
  exact hresult

theorem mem_of_readName {names : List (String × Json)} {text rest : List Char} {value : Json}
    (h : readName names text = some (some value, rest)) : value ∈ names.map (·.2) := by
  induction names generalizing text with
  | nil => cases h
  | cons first names ih =>
      obtain ⟨⟨accepted, middle⟩, -, h⟩ := Option.bind_eq_some_iff.mp h
      cases accepted with
      | true =>
          cases h
          exact List.mem_cons_self
      | false => exact List.mem_cons_of_mem _ (ih h)

theorem fits_of_named {value : Json} (h : value ∈ named.map (·.2)) (digits depth : Nat) :
    value.Fits digits depth := by
  simp only [named, List.map_cons, List.map_nil, List.mem_cons, List.not_mem_nil, or_false] at h
  rcases h with rfl | rfl | rfl | rfl <;> cases depth <;> trivial

theorem follows_readOuter {digits wide depth : Nat} (hwide : digits ≤ wide)
    {inner inner' : Except Fault (Scanner Json)}
    (hlist : Follows (Fits digits depth) (readList inner) (readList inner'))
    (hobject : Follows (Fits digits depth) (readObject inner) (readObject inner')) :
    Follows (Fits digits depth) (readOuter digits inner) (readOuter wide inner') := by
  refine .step fun _ quote _ _ => ?_
  cases quote with
  | true => exact .step fun _ value _ _ => .pure (by cases depth <;> trivial)
  | false =>
      refine .step fun _ bracket _ _ => ?_
      cases bracket with
      | true => exact hlist
      | false =>
          refine .step fun _ brace _ _ => ?_
          cases brace with
          | true => exact hobject
          | false =>
              refine .step fun text name rest hname => ?_
              cases name with
              | some value =>
                  have hmem := mem_of_readName (ofReader_eq_ok_iff.mp hname)
                  exact .pure (fits_of_named hmem digits depth)
              | none => exact follows_readNumber hwide depth

theorem follows_readList {digits depth : Nat} {narrow wide : Scanner Json}
    (h : Follows (Fits digits depth) narrow wide) :
    Follows (Fits digits (depth + 1)) (readList (.ok narrow)) (readList (.ok wide)) := by
  have hopen (item : Scanner Json) :
      readList (.ok item) = (do return .list (← readSequence ']' item)) := rfl
  rw [hopen, hopen]
  refine .bind (follows_readSequence h ']') (fun items hitems => .pure hitems) ?_
  intro items text result rest hread hresult
  cases hread
  exact hresult

theorem follows_readObject {digits depth : Nat} {narrow wide : Scanner Json}
    (h : Follows (Fits digits depth) narrow wide) :
    Follows (Fits digits (depth + 1)) (readObject (.ok narrow)) (readObject (.ok wide)) := by
  have hopen (value : Scanner Json) : readObject (.ok value) =
      (do return .object (← readSequence '\x7d' (readField value))) := rfl
  rw [hopen, hopen]
  refine .bind (follows_readSequence (follows_readField h) '\x7d')
    (fun fields hfields => .pure hfields) ?_
  intro fields text result rest hread hresult
  cases hread
  exact hresult

/-- Without room for what is inside, a list or an object comes to the limit of depth. -/
theorem follows_readValue {digits wide : Nat} (hdigits : digits ≤ wide) {depth room : Nat}
    (hdepth : depth ≤ room) :
    Follows (Fits digits depth) (readValue digits depth) (readValue wide room) := by
  induction depth generalizing room with
  | zero =>
      have hlist (inner : Except Fault (Scanner Json)) :
          Follows (Fits digits 0) (readList (.error .tooDeep)) (readList inner) := by
        refine .stop (fun text => rfl) (by simp) fun text value rest hread hfits => ?_
        obtain ⟨_, _, -, hread⟩ := bind_eq_ok_iff.mp hread
        obtain ⟨_, _, -, hread⟩ := bind_eq_ok_iff.mp hread
        cases hread
        exact hfits
      have hobject (inner : Except Fault (Scanner Json)) :
          Follows (Fits digits 0) (readObject (.error .tooDeep)) (readObject inner) := by
        refine .stop (fun text => rfl) (by simp) fun text value rest hread hfits => ?_
        obtain ⟨_, _, -, hread⟩ := bind_eq_ok_iff.mp hread
        obtain ⟨_, _, -, hread⟩ := bind_eq_ok_iff.mp hread
        cases hread
        exact hfits
      cases room with
      | zero => exact follows_readOuter hdigits (hlist _) (hobject _)
      | succ room => exact follows_readOuter hdigits (hlist _) (hobject _)
  | succ depth ih =>
      cases room with
      | zero => exact absurd hdepth (Nat.not_succ_le_zero depth)
      | succ room =>
          have hinner := ih (Nat.le_of_succ_le_succ hdepth)
          exact follows_readOuter hdigits (follows_readList hinner) (follows_readObject hinner)

theorem follows_readDocument {limits wide : Limits} (hdigits : limits.digits ≤ wide.digits)
    (hdepth : limits.depth ≤ wide.depth) :
    Follows (·.Within limits) (readDocument limits) (readDocument wide) := by
  refine .step fun _ _ _ _ => .bind (follows_readValue hdigits hdepth)
    (fun value hvalue => .step fun _ _ _ _ => .pure hvalue) ?_
  intro value text result rest hread hresult
  obtain ⟨_, _, -, hread⟩ := bind_eq_ok_iff.mp hread
  cases hread
  exact hresult

/-! ### Documents -/

theorem parse_eq_ok_iff {limits : Limits} {text : List Char} {json : Json} :
    parse limits text = .ok json ↔ readDocument limits text = .ok (json, []) := by
  rw [parse]
  constructor
  · intro h
    split at h
    · rename_i hread
      cases h
      exact hread
    · cases h
    · cases h
  · intro h
    rw [h]

/-- A text that is a JSON document, if it can be read under any limits. -/
def IsDocument (text : List Char) (json : Json) : Prop := ∃ limits, parse limits text = .ok json

/-- What reading comes to for a document: its value, if it is within the limits, and otherwise one
of the limits. -/
theorem parse_of_isDocument {text : List Char} {json : Json} (h : IsDocument text json)
    (limits : Limits) :
    (json.Within limits ∧ parse limits text = .ok json) ∨
      (¬json.Within limits ∧ ∃ fault, parse limits text = .error fault ∧ fault ≠ .malformed) := by
  obtain ⟨other, hother⟩ := h
  let wide : Limits := ⟨max limits.digits other.digits, max limits.depth other.depth⟩
  have hread : readDocument wide text = .ok (json, []) :=
    ((follows_readDocument (Nat.le_max_right _ _) (Nat.le_max_right _ _)).reads text json []).mp
      (parse_eq_ok_iff.mp hother) |>.1
  have hfollows : Follows (·.Within limits) (readDocument limits) (readDocument wide) :=
    follows_readDocument (Nat.le_max_left _ _) (Nat.le_max_left _ _)
  by_cases hwithin : json.Within limits
  · exact Or.inl ⟨hwithin, parse_eq_ok_iff.mpr
      ((hfollows.reads text json []).mpr ⟨hread, hwithin⟩)⟩
  · refine Or.inr ⟨hwithin, ?_⟩
    rw [parse]
    cases hnarrow : readDocument limits text with
    | ok taken =>
        obtain ⟨value, rest⟩ := taken
        obtain ⟨hsame, hvalue⟩ := (hfollows.reads text value rest).mp hnarrow
        cases hread.symm.trans hsame
        exact absurd hvalue hwithin
    | error fault =>
        refine ⟨fault, rfl, fun hmalformed => ?_⟩
        rw [hmalformed] at hnarrow
        cases hread.symm.trans (hfollows.malformed text hnarrow)

/-- A document has one value. -/
theorem IsDocument.unique {text : List Char} {json other : Json} (h : IsDocument text json)
    (hother : IsDocument text other) : json = other := by
  obtain ⟨limits, hparse⟩ := hother
  rcases parse_of_isDocument h limits with ⟨-, hjson⟩ | ⟨-, fault, hfault, -⟩
  · exact Except.ok.inj (hjson.symm.trans hparse)
  · cases hfault.symm.trans hparse

end Polyglot.Json
