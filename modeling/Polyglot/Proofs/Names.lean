import Polyglot.ContextName
import Polyglot.Locale.Code

/-!
Normal forms of context names and locale codes. A normal form has no white space around it, so
normalizing it again changes nothing, and it is not empty.
-/

namespace Polyglot

namespace Text

theorem trimLeft_of_head {text : List Char} (h : ∀ c ∈ text.head?, isBlank c = false) :
    trimLeft text = text := by
  cases text with
  | nil => rfl
  | cons c rest => rw [trimLeft, List.dropWhile_cons_of_neg (by simp [h c rfl])]

theorem isBlank_head?_trimLeft (text : List Char) :
    ∀ c ∈ (trimLeft text).head?, isBlank c = false := by
  intro c hc
  have h := List.head?_dropWhile_not isBlank text
  rw [trimLeft] at hc
  rw [hc] at h
  simpa using h

/-- Nothing blank stands at either end of a trimmed text. -/
theorem trim_trim (text : List Char) : trim (trim text) = trim text := by
  have hlast : ∀ c ∈ (trimLeft (trimLeft text).reverse).head?, isBlank c = false :=
    isBlank_head?_trimLeft _
  have hfirst : ∀ c ∈ (trim text).head?, isBlank c = false := by
    intro c hc
    have hsuffix : trimLeft (trimLeft text).reverse <:+ (trimLeft text).reverse :=
      List.dropWhile_suffix _
    have hfront : trim text <+: trimLeft text := by
      rw [trim, ← List.reverse_suffix, List.reverse_reverse]
      exact hsuffix
    obtain ⟨rest, hrest⟩ := hfront
    apply isBlank_head?_trimLeft text
    rw [← hrest]
    cases h : trim text with
    | nil => rw [h] at hc; cases hc
    | cons d others => rw [h] at hc; exact hc
  rw [trim, trimLeft_of_head hfirst, trim, List.reverse_reverse, trimLeft_of_head hlast]

/-- Trimming takes white space off both ends and nothing else. -/
theorem exists_trim (text : List Char) : ∃ front back, text = front ++ (trim text ++ back) ∧
    (∀ c ∈ front, isBlank c = true) ∧ ∀ c ∈ back, isBlank c = true := by
  refine ⟨text.takeWhile isBlank, ((trimLeft text).reverse.takeWhile isBlank).reverse, ?_,
    fun c hc => List.all_eq_true.mp List.all_takeWhile c hc, fun c hc => ?_⟩
  · rw [trim, ← List.reverse_append]
    simp only [trimLeft, List.takeWhile_append_dropWhile, List.reverse_reverse]
  · exact List.all_eq_true.mp List.all_takeWhile c (List.mem_reverse.mp hc)

/-- A text is found again between white space, if it neither begins nor ends with any. -/
theorem trim_append {front text back : List Char} (hfront : ∀ c ∈ front, isBlank c = true)
    (hback : ∀ c ∈ back, isBlank c = true) (htext : text ≠ [])
    (hvisible : ∀ c ∈ text, isBlank c = false) : trim (front ++ (text ++ back)) = text := by
  have hfirst : ∀ c ∈ (text ++ back).head?, isBlank c = false := by
    intro c hc
    obtain ⟨first, rest, rfl⟩ := List.exists_cons_of_ne_nil htext
    obtain rfl : first = c := Option.some.inj hc
    exact hvisible first List.mem_cons_self
  have hlast : ∀ c ∈ text.reverse.head?, isBlank c = false :=
    fun c hc => hvisible c (List.mem_reverse.mp (List.mem_of_mem_head? hc))
  have hleft : trimLeft (front ++ (text ++ back)) = text ++ back := by
    rw [trimLeft, List.dropWhile_append_of_pos hfront]
    exact trimLeft_of_head hfirst
  have hright : trimLeft (back.reverse ++ text.reverse) = text.reverse := by
    rw [trimLeft, List.dropWhile_append_of_pos fun c hc => hback c (List.mem_reverse.mp hc)]
    exact trimLeft_of_head hlast
  rw [trim, hleft, List.reverse_append, hright, List.reverse_reverse]

end Text

/-! ### Context names -/

theorem isContextName_of_normalizeName {name normal : String}
    (h : normalizeName name = .ok normal) :
    isContextName normal.toList = true ∧ normal.toList = Text.trim name.toList := by
  simp only [normalizeName] at h
  split at h
  · cases h
  · split at h
    · rename_i hname
      cases h
      rw [String.toList_ofList]
      exact ⟨hname, rfl⟩
    · cases h

/-- Every name that comes out of normalizing is its own normal form. -/
theorem normalizeName_normal {name normal : String} (h : normalizeName name = .ok normal) :
    normalizeName normal = .ok normal := by
  obtain ⟨hname, htrim⟩ := isContextName_of_normalizeName h
  have hfixed : Text.trim normal.toList = normal.toList := by rw [htrim, Text.trim_trim]
  have hne : normal.toList.isEmpty = false := by
    cases hlist : normal.toList with
    | nil => rw [hlist] at hname; cases hname
    | cons c rest => rfl
  simp only [normalizeName, hfixed, hne, hname, if_true, String.ofList_toList, Bool.false_eq_true,
    if_false]

/-! ### Locale codes -/

theorem CodeParts.render_ne_nil {text : List Char} {parts : CodeParts}
    (h : CodeParts.read? text = some parts) : parts.render ≠ [] := by
  simp only [CodeParts.read?, Option.ite_none_right_eq_some, Option.some.injEq] at h
  obtain ⟨⟨hlength, -⟩, rfl⟩ := h
  intro hnil
  obtain ⟨hlanguage, -⟩ := List.append_eq_nil_iff.mp hnil
  have hempty : text.takeWhile Char.isAlpha = [] := List.map_eq_nil_iff.mp hlanguage
  rw [hempty] at hlength
  simp at hlength

theorem ne_empty_of_normalizeCode {text code : String} (h : normalizeCode text = .ok code) :
    code ≠ "" := by
  simp only [normalizeCode] at h
  split at h
  · cases h
  · split at h
    · rename_i parts hparts
      cases h
      intro hempty
      exact CodeParts.render_ne_nil hparts (String.ofList_eq_empty_iff.mp hempty)
    · cases h

end Polyglot
