import Mathlib.Data.List.Forall2
import Polyglot.Proofs.Document
import Polyglot.Proofs.Front
import Polyglot.Proofs.Table

/-!
What the bytes of a text are in the character sets that a document can declare. In each of them
ASCII stands for itself, so the declaration is found in the bytes of a text as it is in the text.
Beyond ASCII the character sets have nothing in common: bytes of UTF-8 that are taken one by one are
other characters, and more of them.
-/

namespace Polyglot

open Text Reader

namespace Xml.Charset

/-! ### Bytes -/

/-- Bytes as they are looked at before their meaning is known: each as a character of its own. -/
def unread (bytes : List UInt8) : List Char := bytes.map fun byte => Char.ofNat byte.toNat

theorem toNat_unread (byte : UInt8) : (Char.ofNat byte.toNat).toNat = byte.toNat := by
  have hbyte : byte.toNat < 256 := byte.toNat_lt
  rw [Char.ofNat, dif_pos (Or.inl (by omega))]
  rfl

theorem utf8EncodeChar_of_ascii {c : Char} (h : c.toNat < 128) :
    String.utf8EncodeChar c = [UInt8.ofNat c.toNat] :=
  if_pos (Nat.le_of_lt_succ h)

/-- A character that is not of ASCII takes more than one byte in UTF-8, and none of ASCII. -/
theorem utf8EncodeChar_of_not_ascii {c : Char} (h : 128 ≤ c.toNat) :
    ∃ first second more, String.utf8EncodeChar c = first :: second :: more ∧
      ∀ byte ∈ String.utf8EncodeChar c, 128 ≤ byte.toNat := by
  have hsmall : ¬c.val.toNat ≤ 127 := Nat.not_le.mpr h
  simp only [String.utf8EncodeChar, if_neg hsmall]
  split
  · refine ⟨_, _, _, rfl, ?_⟩
    simp
    omega
  · split
    · refine ⟨_, _, _, rfl, ?_⟩
      simp
      omega
    · refine ⟨_, _, _, rfl, ?_⟩
      simp
      omega

theorem unread_ascii {c : Char} (h : c.toNat < 128) :
    Char.ofNat (UInt8.ofNat c.toNat).toNat = c := by
  rw [UInt8.toNat_ofNat', Nat.mod_eq_of_lt (by omega), Char.ofNat_toNat]

theorem asciiFront_utf8 (text : List Char) :
    asciiFront (unread (text.flatMap String.utf8EncodeChar)) = asciiFront text := by
  induction text with
  | nil => rfl
  | cons c rest ih =>
      rw [unread] at ih
      rw [List.flatMap_cons, unread, List.map_append]
      rcases Nat.lt_or_ge c.toNat 128 with hascii | hbeyond
      · rw [utf8EncodeChar_of_ascii hascii, List.map_singleton, unread_ascii hascii,
          List.singleton_append, asciiFront_cons hascii, asciiFront_cons hascii, ih]
      · obtain ⟨first, second, more, hbytes, hlarge⟩ := utf8EncodeChar_of_not_ascii hbeyond
        rw [asciiFront_cons_of_not_ascii hbeyond, hbytes]
        refine asciiFront_cons_of_not_ascii ?_ _
        rw [toNat_unread]
        exact hlarge first (hbytes ▸ List.mem_cons_self)

/-- The character sets that have one byte for each character. -/
def IsSingle (charset : Charset) : Prop :=
  charset = .latin1 ∨ charset = .windows1251 ∨ charset = .ascii

theorem IsSingle.decode? {charset : Charset} (h : charset.IsSingle) (bytes : ByteArray) :
    charset.decode? bytes = bytes.toList.mapM charset.single? := by
  rcases h with rfl | rfl | rfl <;> rfl

theorem isSingle_of_single? {charset : Charset} {byte : UInt8} {c : Char}
    (h : charset.single? byte = some c) : charset.IsSingle := by
  cases charset with
  | latin1 => exact Or.inl rfl
  | windows1251 => exact Or.inr (Or.inl rfl)
  | ascii => exact Or.inr (Or.inr rfl)
  | utf8 => cases h
  | utf16 bigEndian => cases h

/-- What holds of all characters that the bytes below 256 stand for holds of each. -/
theorem of_single? {P : Nat → Char → Prop} [∀ point c, Decidable (P point c)] {charset : Charset}
    {byte : UInt8} {c : Char} (h : charset.single? byte = some c)
    (hall : ∀ point < 256, (charset.single? (UInt8.ofNat point)).all (decide <| P point ·) = true) :
    P byte.toNat c := by
  have hbyte := hall byte.toNat byte.toNat_lt
  rw [UInt8.ofNat_toNat, h] at hbyte
  exact of_decide_eq_true hbyte

/-- A byte of ASCII stands for itself, and any other byte for no character of ASCII. -/
theorem single?_cases {charset : Charset} {byte : UInt8} {c : Char}
    (h : charset.single? byte = some c) :
    (c.toNat < 128 ∧ c = Char.ofNat byte.toNat) ∨ (128 ≤ c.toNat ∧ 128 ≤ byte.toNat) := by
  refine of_single? (P := fun point c =>
    (c.toNat < 128 ∧ c = Char.ofNat point) ∨ (128 ≤ c.toNat ∧ 128 ≤ point)) h ?_
  rcases isSingle_of_single? h with rfl | rfl | rfl <;> decide +kernel

theorem IsSingle.single?_of_ascii {charset : Charset} (h : charset.IsSingle) {c : Char}
    (hc : c.toNat < 128) : charset.single? (UInt8.ofNat c.toNat) = some c := by
  have hall : ∀ point < 128,
      charset.single? (UInt8.ofNat (Char.ofNat point).toNat) = some (Char.ofNat point) := by
    rcases h with rfl | rfl | rfl <;> decide +kernel
  exact of_ascii (P := fun c => charset.single? (UInt8.ofNat c.toNat) = some c) hall hc

theorem mapM_eq_some_iff {α β : Type} {f : α → Option β} {items : List α} {values : List β} :
    items.mapM f = some values ↔
      List.Forall₂ (fun item value => f item = some value) items values := by
  constructor
  · intro h
    induction items generalizing values with
    | nil =>
        cases h
        exact .nil
    | cons item rest ih =>
        rw [List.mapM_cons] at h
        obtain ⟨value, hvalue, h⟩ := Option.bind_eq_some_iff.mp h
        obtain ⟨others, hothers, h⟩ := Option.bind_eq_some_iff.mp h
        cases h
        exact .cons hvalue (ih hothers)
  · intro h
    induction h with
    | nil => rfl
    | cons hvalue _ ih =>
        rw [List.mapM_cons, hvalue, ih]
        rfl

theorem asciiFront_single {charset : Charset} {bytes : List UInt8} {text : List Char}
    (h : bytes.mapM charset.single? = some text) : asciiFront (unread bytes) = asciiFront text := by
  rw [mapM_eq_some_iff] at h
  induction h with
  | nil => rfl
  | @cons byte c bytes text hbyte _ ih =>
      rw [unread, List.map_cons]
      rcases single?_cases hbyte with ⟨hascii, hc⟩ | ⟨hbeyond, hlarge⟩
      · rw [← hc, asciiFront_cons hascii, asciiFront_cons hascii, ← ih]
        rfl
      · rw [asciiFront_cons_of_not_ascii hbeyond]
        exact asciiFront_cons_of_not_ascii (by rwa [toNat_unread]) _

theorem isCharacter_of_single? {charset : Charset} {byte : UInt8} {c : Char}
    (h : charset.single? byte = some c) (hc : 128 ≤ c.toNat) : isCharacter c = true := by
  refine of_single? (P := fun _ c => 128 ≤ c.toNat → isCharacter c = true) h ?_ hc
  rcases isSingle_of_single? h with rfl | rfl | rfl <;> decide +kernel

theorem exists_of_mem_mapM {α β : Type} {f : α → Option β} {items : List α} {values : List β}
    (h : items.mapM f = some values) : ∀ value ∈ values, ∃ item ∈ items, f item = some value := by
  rw [mapM_eq_some_iff] at h
  induction h with
  | nil => exact fun _ h => absurd h List.not_mem_nil
  | @cons item value items values hvalue _ ih =>
      refine List.forall_mem_cons.mpr ⟨⟨item, List.mem_cons_self, hvalue⟩, fun other hother => ?_⟩
      obtain ⟨found, hfound, hother⟩ := ih other hother
      exact ⟨found, List.mem_cons_of_mem _ hfound, hother⟩

/-- The bytes of a character beyond ASCII in UTF-8, read one by one, are at least two characters,
and all of them are beyond ASCII. -/
theorem misread_of_not_ascii {charset : Charset} {c : Char} {misread : List Char}
    (hc : 128 ≤ c.toNat)
    (h : (String.utf8EncodeChar c).mapM charset.single? = some misread) :
    1 < misread.length ∧ ∀ d ∈ misread, 128 ≤ d.toNat ∧ isCharacter d = true := by
  obtain ⟨first, second, more, hbytes, hlarge⟩ := utf8EncodeChar_of_not_ascii hc
  constructor
  · rw [← (mapM_eq_some_iff.mp h).length_eq, hbytes, List.length_cons, List.length_cons]
    omega
  · intro d hd
    obtain ⟨byte, hbyte, hsingle⟩ := exists_of_mem_mapM h d hd
    have hbeyond : 128 ≤ d.toNat := by
      rcases single?_cases hsingle with ⟨-, rfl⟩ | ⟨hbeyond, -⟩
      · rw [toNat_unread]
        exact hlarge byte hbyte
      · exact hbeyond
    exact ⟨hbeyond, isCharacter_of_single? hsingle hbeyond⟩

/-- Bytes of ASCII stand for the same text in UTF-8 and in the other character sets. -/
theorem IsSingle.mapM_utf8_of_ascii {charset : Charset} (h : charset.IsSingle) {text : List Char}
    (hascii : ∀ c ∈ text, c.toNat < 128) :
    (text.flatMap String.utf8EncodeChar).mapM charset.single? = some text := by
  induction text with
  | nil => rfl
  | cons c rest ih =>
      have hc := hascii c List.mem_cons_self
      rw [List.flatMap_cons, utf8EncodeChar_of_ascii hc, List.singleton_append, List.mapM_cons,
        h.single?_of_ascii hc, ih fun d hd => hascii d (List.mem_cons_of_mem _ hd)]
      rfl

/-- A text with one character beyond ASCII in it, in UTF-8. -/
theorem IsSingle.decode?_utf8_of_ascii {charset : Charset} (h : charset.IsSingle)
    {before after : List Char} (hbefore : ∀ c ∈ before, c.toNat < 128)
    (hafter : ∀ c ∈ after, c.toNat < 128) (c : Char) :
    charset.decode? (before ++ ([c] ++ after)).utf8Encode =
      ((String.utf8EncodeChar c).mapM charset.single?).map fun misread =>
        before ++ (misread ++ after) := by
  rw [h.decode?, toList_utf8Encode, List.flatMap_append, List.flatMap_append, List.mapM_append,
    List.mapM_append, h.mapM_utf8_of_ascii hbefore, h.mapM_utf8_of_ascii hafter,
    List.flatMap_singleton]
  cases (String.utf8EncodeChar c).mapM charset.single? <;> rfl

/-- A text whose characters all have a byte can be written in bytes. -/
theorem IsSingle.exists_bytes {charset : Charset} (h : charset.IsSingle) {text : List Char}
    (hbytes : ∀ c ∈ text, ∃ byte, charset.single? byte = some c) :
    ∃ bytes, charset.decode? bytes = some text := by
  have hlist : ∃ bytes : List UInt8, bytes.mapM charset.single? = some text := by
    induction text with
    | nil => exact ⟨[], rfl⟩
    | cons c rest ih =>
        obtain ⟨byte, hbyte⟩ := hbytes c List.mem_cons_self
        obtain ⟨bytes, hrest⟩ := ih fun d hd => hbytes d (List.mem_cons_of_mem _ hd)
        refine ⟨byte :: bytes, ?_⟩
        rw [List.mapM_cons, hbyte, hrest]
        rfl
  obtain ⟨bytes, hbytes⟩ := hlist
  exact ⟨bytes.toByteArray, by rw [h.decode?, toList_toByteArray, hbytes]⟩

theorem eq_utf8Encode_of_decode? {bytes : ByteArray} {text : List Char}
    (h : Charset.decode? .utf8 bytes = some text) : bytes = text.utf8Encode := by
  obtain ⟨string, hstring, rfl⟩ := Option.map_eq_some_iff.mp h
  rw [String.fromUTF8?] at hstring
  split at hstring
  · rename_i hvalid
    cases hstring
    exact toUTF8_eq (String.fromUTF8 bytes hvalid)
  · cases hstring

/-- Whatever the character set, the declaration can be found in the bytes. -/
theorem asciiFront_of_decode? {text : List Char} {charset : Charset} {bytes : ByteArray}
    (hcharset : charset = .utf8 ∨ charset.IsSingle) (h : charset.decode? bytes = some text) :
    asciiFront (unread bytes.toList) = asciiFront text := by
  rcases hcharset with rfl | hsingle
  · rw [eq_utf8Encode_of_decode? h, toList_utf8Encode, asciiFront_utf8]
  · rw [hsingle.decode?] at h
    exact asciiFront_single h

end Xml.Charset

namespace Xml

/-! ### The declared character set -/

/-- A text begins with a declaration that names a character set. -/
def DeclaresCharset (text : List Char) (charset : Charset) : Prop :=
  ∃ declaration name rest, Declaration.read text = some (declaration, rest) ∧
    declaration.charset = some name ∧ Charset.named? name = some charset

theorem DeclaresCharset.utf8_or_isSingle {text : List Char} {charset : Charset}
    (h : DeclaresCharset text charset) : charset = .utf8 ∨ charset.IsSingle := by
  obtain ⟨-, name, -, -, -, hname⟩ := h
  have hall : ∀ entry ∈ Charset.names, entry.2 = .utf8 ∨ entry.2 = .latin1 ∨
      entry.2 = .windows1251 ∨ entry.2 = .ascii := by decide
  exact hall _ (Table.mem_of_get? hname)

/-- The declaration of a text is found in bytes that begin alike. -/
theorem Document.charset?_of_asciiFront {text : List Char} {charset : Charset} {bytes : ByteArray}
    (h : DeclaresCharset text charset)
    (hfront : asciiFront (Charset.unread bytes.toList) = asciiFront text) :
    Document.charset? bytes = some (charset, bytes) := by
  obtain ⟨declaration, name, rest, hread, hname, hcharset⟩ := h
  have hfound : ∃ rest', Declaration.read (Charset.unread bytes.toList) =
      some (declaration, rest') := by
    have htext := Declaration.seesFront_read text
    have hbytes := Declaration.seesFront_read (Charset.unread bytes.toList)
    rw [hread, Option.map_some] at htext
    rw [hfront, htext] at hbytes
    obtain ⟨⟨found, rest'⟩, hfound, heq⟩ := Option.map_eq_some_iff.mp hbytes.symm
    obtain rfl : found = declaration := congrArg Prod.fst heq
    exact ⟨rest', hfound⟩
  obtain ⟨rest', hfound⟩ := hfound
  have hmark : Charset.ofMark? bytes = none := by
    obtain ⟨others, hothers⟩ := Declaration.exists_cons_of_read hfound hname
    obtain ⟨byte, more, hbytes, hbyte, -⟩ := List.map_eq_cons_iff.mp hothers
    obtain rfl : byte = 0x3c := by
      have hpoint := congrArg Char.toNat hbyte
      rw [Charset.toNat_unread] at hpoint
      exact UInt8.toNat_inj.mp hpoint
    rw [Charset.ofMark?, hbytes]
    rfl
  obtain ⟨found, standalone⟩ := declaration
  obtain rfl : found = some name := hname
  rw [Charset.unread] at hfound
  simp only [Document.charset?, hmark, hfound, hcharset, Option.map_some]

end Xml

end Polyglot
