import Polyglot.Text.Reader

/-!
What readers take off a text whose beginning is known. A reader is followed step by step through
its binds; a repeated reader is followed item by item, and the characters that the items take pay
for the fuel.
-/

namespace Polyglot.Text.Reader

variable {α β : Type}

/-! ### Steps -/

@[simp]
theorem pure_apply (value : α) (text : List Char) :
    (pure value : Reader α) text = some (value, text) :=
  rfl

theorem bind_of_eq {reader : Reader α} {next : α → Reader β} {text rest : List Char} {value : α}
    (h : reader text = some (value, rest)) : (reader >>= next) text = next value rest := by
  simp only [bind, StateT.bind, h, Option.bind_some]

theorem bind_ahead (next : List Char → Reader β) (text : List Char) :
    (ahead >>= next) text = next text text :=
  bind_of_eq rfl

/-! ### Words and runs -/

theorem expect_append (word rest : List Char) : expect word (word ++ rest) = some ((), rest) := by
  have hfront : word.isPrefixOf (word ++ rest) = true :=
    List.isPrefixOf_iff_prefix.mpr (List.prefix_append word rest)
  rw [expect, if_pos hfront, List.drop_left]

theorem expect_one (c : Char) (rest : List Char) : expect [c] (c :: rest) = some ((), rest) :=
  expect_append [c] rest

theorem accept_append (word rest : List Char) : accept word (word ++ rest) = some (true, rest) := by
  have hfront : word.isPrefixOf (word ++ rest) = true :=
    List.isPrefixOf_iff_prefix.mpr (List.prefix_append word rest)
  rw [accept, if_pos hfront, List.drop_left]

theorem accept_one (c : Char) (rest : List Char) : accept [c] (c :: rest) = some (true, rest) :=
  accept_append [c] rest

theorem accept_of_head_ne {c d : Char} (h : c ≠ d) (word rest : List Char) :
    accept (c :: word) (d :: rest) = some (false, d :: rest) := by
  have hfront : (c :: word).isPrefixOf (d :: rest) = false := by
    rw [List.isPrefixOf_cons_cons, beq_false_of_ne h, Bool.false_and]
  rw [accept, if_neg (by rw [hfront]; exact Bool.false_ne_true)]

theorem one_cons {condition : Char → Bool} {c : Char} (h : condition c = true) (rest : List Char) :
    one condition (c :: rest) = some (c, rest) := by
  rw [one, if_pos h]

/-- A run ends where a character does not meet its condition. -/
theorem span_append {condition : Char → Bool} {word rest : List Char}
    (hword : ∀ c ∈ word, condition c = true) (hrest : ∀ c ∈ rest.head?, condition c = false) :
    (word ++ rest).takeWhile condition = word ∧ (word ++ rest).dropWhile condition = rest := by
  rw [List.takeWhile_append_of_pos hword, List.dropWhile_append_of_pos hword]
  cases rest with
  | nil => exact ⟨List.append_nil word, rfl⟩
  | cons c others =>
      have hc : ¬condition c = true := by simp [hrest c rfl]
      rw [List.takeWhile_cons_of_neg hc, List.dropWhile_cons_of_neg hc, List.append_nil]
      exact ⟨rfl, rfl⟩

theorem run_append {condition : Char → Bool} {word rest : List Char}
    (hword : ∀ c ∈ word, condition c = true) (hrest : ∀ c ∈ rest.head?, condition c = false) :
    run condition (word ++ rest) = some (word, rest) := by
  obtain ⟨htaken, hleft⟩ := span_append hword hrest
  rw [run, htaken, hleft]

/-! ### Repetition -/

/-- The items that stand at the front of a text, up to a place where there is none. Every item takes
at least one character. -/
inductive Items (item : Reader (Option α)) : List Char → List α → List Char → Prop where
  | stop {text rest : List Char} (h : item text = some (none, rest)) : Items item text [] rest
  | next {text middle rest : List Char} {value : α} {values : List α}
      (h : item text = some (some value, middle)) (hlength : middle.length < text.length)
      (hrest : Items item middle values rest) : Items item text (value :: values) rest

theorem loop_of_items {item : Reader (Option α)} {text rest : List Char} {values : List α}
    (h : Items item text values rest) (fuel : List Char) (hfuel : text.length ≤ fuel.length)
    (taken : List α) : loop item fuel taken text = some (taken.reverse ++ values, rest) := by
  induction h generalizing fuel taken with
  | stop h =>
      cases fuel <;> rw [loop, bind_of_eq h, List.append_nil] <;> rfl
  | @next text middle rest value values h hlength _ ih =>
      cases fuel with
      | nil =>
          simp only [List.length_nil] at hfuel
          omega
      | cons c fuel =>
          rw [List.length_cons] at hfuel
          rw [loop, bind_of_eq h]
          have hloop := ih fuel (by omega) (value :: taken)
          rwa [List.reverse_cons, List.append_assoc, List.singleton_append] at hloop

/-- The fuel is as long as what is left, so it is never used up. -/
theorem many_of_items {item : Reader (Option α)} {text rest : List Char} {values : List α}
    (h : Items item text values rest) : many item text = some (values, rest) := by
  rw [many, bind_ahead, loop_of_items h text (Nat.le_refl _), List.reverse_nil, List.nil_append]

end Polyglot.Text.Reader
