import Polyglot.Proofs.Charset
import Polyglot.Proofs.RoundTrip

/-!
Catalogs from texts and from bytes. A document is taken as a text by way of its bytes in UTF-8, but
its declaration is believed. So a text that declares another character set is read as what its bytes
in UTF-8 are in that one: the same text, if all of it is ASCII, and else another text or none.
-/

namespace Polyglot

open Text Reader

namespace Catalog

/-! ### What is read -/

/-- What is said of a document that is not well-formed. -/
def malformed (locale : Locale) : Reading :=
  ⟨.error (.catalog ⟨.malformed, locale.code, none, none⟩), []⟩

/-- Reads the catalog of a locale from the characters of a document. -/
def ofCharacters (config : Config) (locale : Locale) (text : List Char) : Reading :=
  if text.all Xml.isCharacter then
    (readAll? Xml.Document.read (Xml.Document.unifyLines [] text)).elim (malformed locale)
      (ofDocument config locale)
  else malformed locale

theorem ofBytes_of_charset? {charset : Xml.Charset} {bytes : ByteArray}
    (h : Xml.Document.charset? bytes = some (charset, bytes)) (config : Config) (locale : Locale) :
    ofBytes config locale bytes =
      (charset.decode? bytes).elim (malformed locale) (ofCharacters config locale) := by
  have htext : Xml.Document.text? bytes = (charset.decode? bytes).bind fun text =>
      if text.all Xml.isCharacter then some (Xml.Document.unifyLines [] text) else none := by
    rw [Xml.Document.text?, h, Option.bind_eq_bind, Option.bind_some]
    refine congrArg (Option.bind _) (funext fun text => ?_)
    cases text.all Xml.isCharacter <;> rfl
  have hbytes : ofBytes config locale bytes =
      (Xml.Document.parse? bytes).elim (malformed locale) (ofDocument config locale) := by
    rw [ofBytes]
    cases Xml.Document.parse? bytes <;> rfl
  rw [hbytes, Xml.Document.parse?, htext]
  cases charset.decode? bytes with
  | none => rfl
  | some text =>
      rw [Option.bind_some, Option.elim_some, ofCharacters]
      split
      · rw [Option.bind_some]
      · rfl

/-- A text that declares a character set, and its bytes in that character set. -/
structure Encoded (charset : Xml.Charset) (text : String) (bytes : ByteArray) : Prop where
  declares : Xml.DeclaresCharset text.toList charset
  encodes : charset.decode? bytes = some text.toList

namespace Encoded

variable {charset : Xml.Charset} {text : String} {bytes : ByteArray}

/-- Bytes are read as the text that they stand for. -/
theorem ofBytes (h : Encoded charset text bytes) (config : Config) (locale : Locale) :
    Catalog.ofBytes config locale bytes = ofCharacters config locale text.toList := by
  have hfront := Xml.Charset.asciiFront_of_decode? h.declares.utf8_or_isSingle h.encodes
  rw [ofBytes_of_charset? (Xml.Document.charset?_of_asciiFront h.declares hfront), h.encodes]
  rfl

/-- The text itself is read as what its bytes in UTF-8 are in the character set that it declares. -/
theorem ofText (h : Encoded charset text bytes) (config : Config) (locale : Locale) :
    Catalog.ofText config locale text =
      (charset.decode? text.toUTF8).elim (malformed locale) (ofCharacters config locale) := by
  have hfront : asciiFront (Xml.Charset.unread text.toUTF8.toList) = asciiFront text.toList := by
    rw [Xml.toUTF8_eq, Xml.toList_utf8Encode, Xml.Charset.asciiFront_utf8]
  rw [Catalog.ofText, ofBytes_of_charset? (Xml.Document.charset?_of_asciiFront h.declares hfront)]

/-- Nothing is misread of what the character set shares with UTF-8. -/
theorem decode?_toUTF8 (h : Encoded charset text bytes)
    (hshared : charset = .utf8 ∨ ∀ c ∈ text.toList, c.toNat < 128) :
    charset.decode? text.toUTF8 = some text.toList := by
  rw [Xml.toUTF8_eq]
  rcases h.declares.utf8_or_isSingle with rfl | hsingle
  · exact Xml.decode?_utf8 text.toList
  · rcases hshared with rfl | hascii
    · exact Xml.decode?_utf8 text.toList
    · rw [hsingle.decode?, Xml.toList_utf8Encode]
      exact hsingle.mapM_utf8_of_ascii hascii

/-- A character beyond ASCII has a byte in a character set with one byte for each. -/
theorem exists_byte (h : Encoded charset text bytes) (hcharset : charset ≠ .utf8) :
    ∀ c ∈ text.toList, ∃ byte, charset.single? byte = some c := by
  intro c hc
  have hsingle := h.declares.utf8_or_isSingle.resolve_left hcharset
  have hencodes := h.encodes
  rw [hsingle.decode?] at hencodes
  obtain ⟨byte, -, hbyte⟩ := Xml.Charset.exists_of_mem_mapM hencodes c hc
  exact ⟨byte, hbyte⟩

end Encoded

end Catalog

namespace Xml

/-! ### A document for every character -/

/-- A text is a declaration that names a character set. -/
structure IsDeclaration (front : List Char) (charset : Charset) : Prop where
  ascii : ∀ c ∈ front, c.toNat < 128
  admissible : Admissible front
  read : ∃ declaration name, declaration.charset = some name ∧
    Charset.named? name = some charset ∧
    ∀ rest, Declaration.read (front ++ rest) = some (declaration, rest)

theorem IsDeclaration.declares {front : List Char} {charset : Charset}
    (h : IsDeclaration front charset) (rest : List Char) :
    DeclaresCharset (front ++ rest) charset := by
  obtain ⟨declaration, name, hname, hcharset, hread⟩ := h.read
  exact ⟨declaration, name, rest, hread rest, hname, hcharset⟩

def latin1Declaration : List Char := "<?xml version=\"1.0\" encoding=\"iso-8859-1\"?>".toList

theorem isDeclaration_latin1 : IsDeclaration latin1Declaration .latin1 where
  ascii := ascii_of_all rfl
  admissible := by decide
  read := ⟨{ charset := some "iso-8859-1".toList }, _, rfl, by decide, fun _ => rfl⟩

def windows1251Declaration : List Char :=
  "<?xml version=\"1.0\" encoding=\"windows-1251\"?>".toList

theorem isDeclaration_windows1251 : IsDeclaration windows1251Declaration .windows1251 where
  ascii := ascii_of_all rfl
  admissible := by decide
  read := ⟨{ charset := some "windows-1251".toList }, _, rfl, by decide, fun _ => rfl⟩

theorem Charset.IsSingle.exists_isDeclaration {charset : Charset} (h : charset.IsSingle) :
    ∃ front, IsDeclaration front charset := by
  rcases h with rfl | rfl | rfl
  · exact ⟨_, isDeclaration_latin1⟩
  · exact ⟨_, isDeclaration_windows1251⟩
  · refine ⟨"<?xml version=\"1.0\" encoding=\"ascii\"?>".toList, ascii_of_all rfl, by decide, ?_⟩
    exact ⟨{ charset := some "ascii".toList }, _, rfl, by decide, fun _ => rfl⟩

end Xml

namespace Catalog

open Xml

/-- A catalog of one message, whose translation is a text. -/
def oneMessage (text : String) : List Section := [⟨"Ui", [("a", text)]⟩]

def messageBefore : List Char :=
  emptyDoctype ++ openTag "TS" [("version", "2.1"), ("language", "ru")] ++ escaped "\n" ++
    openTag "context" [] ++ escaped "\n    " ++ openTag "name" [] ++ escaped "Ui" ++
    closeTag "name" ++ escaped "\n    " ++ openTag "message" [] ++ escaped "\n        " ++
    openTag "source" [] ++ escaped "a" ++ closeTag "source" ++ escaped "\n        " ++
    openTag "translation" []

def messageAfter : List Char :=
  closeTag "translation" ++ escaped "\n    " ++ closeTag "message" ++ escaped "\n" ++
    closeTag "context" ++ escaped "\n" ++ closeTag "TS"

theorem ascii_messageBefore : ∀ c ∈ messageBefore, c.toNat < 128 :=
  ascii_of_all (by decide +kernel)

theorem ascii_messageAfter : ∀ c ∈ messageAfter, c.toNat < 128 := ascii_of_all (by decide)

/-- The document of such a catalog behind a declaration. -/
def messageDocument (front : List Char) (text : String) : List Char :=
  front ++ (messageBefore ++ (escaped text ++ messageAfter))

theorem messageDocument_eq (front : List Char) (text : String) :
    messageDocument front text = front ++ (emptyDoctype ++
      (openTag "TS" [("version", "2.1"), ("language", "ru")] ++
        (rootContent (oneMessage text) ++ []))) := by
  simp only [messageDocument, messageBefore, messageAfter, oneMessage, rootContent, sectionText,
    phraseText, List.flatMap_cons, List.flatMap_nil, List.append_assoc, List.append_nil]

theorem writableSections_oneMessage {text : String} (h : Writable text)
    (hpercent : '%' ∉ text.toList) : WritableSections (oneMessage text) := by
  have hpositions := Placeholder.positions_of_not_mem hpercent
  have hphrase : WritablePhrase ("a", text) := by
    refine ⟨show Writable "a" by decide, h, show 0 ∉ Placeholder.positions "a" by decide, ?_, ?_⟩
    · rw [hpositions]
      exact List.not_mem_nil
    · rw [hpositions]
      exact fun position hposition => absurd hposition List.not_mem_nil
  have hpart : WritableSection ⟨"Ui", [("a", text)]⟩ :=
    ⟨show normalizeName "Ui" = .ok "Ui" by decide, by simp, List.forall_mem_singleton.mpr hphrase⟩
  exact ⟨by simp [oneMessage], List.forall_mem_singleton.mpr hpart⟩

def russian : Locale := ⟨"ru", "Русский"⟩

theorem ofCharacters_messageDocument {front : List Char} {charset : Charset} {text : String}
    (hfront : IsDeclaration front charset) (htext : Writable text)
    (hpercent : '%' ∉ text.toList) :
    ofCharacters .standard russian (messageDocument front text) =
      ⟨.ok ⟨russian, (oneMessage text).map fun part => (part.name, part.messages)⟩, []⟩ := by
  obtain ⟨declaration, name, -, -, hread⟩ := hfront.read
  have hbefore : Admissible messageBefore := by decide +kernel
  have hafter : Admissible messageAfter := by decide +kernel
  have hadmissible : Admissible (messageDocument front text) :=
    hfront.admissible.append (hbefore.append (htext.characters.escaped.append hafter))
  have hall : (messageDocument front text).all isCharacter = true :=
    List.all_eq_true.mpr fun c hc => (hadmissible c hc).1
  have hreturn : '\r' ∉ messageDocument front text := fun hmem => (hadmissible _ hmem).2 rfl
  have hroot (references : References) := readRoot_written references
    (show isPlainValue "ru".toList = true by decide) (oneMessage text) []
  have hdocument : readAll? Document.read (messageDocument front text) =
      some ⟨{}, rootNode "ru" (oneMessage text)⟩ := by
    rw [messageDocument_eq, readAll?]
    rw [openTag_root, List.append_assoc] at hroot ⊢
    rw [read_of_readRoot hread hroot rfl]
  rw [ofCharacters, if_pos hall, unifyLines_of_not_mem hreturn, List.reverse_nil, List.nil_append,
    hdocument, Option.elim_some]
  have hsections := writableSections_oneMessage htext hpercent
  have hfound : rootOf? ⟨{}, rootNode "ru" (oneMessage text)⟩ =
    some (rootNode "ru" (oneMessage text)) := rfl
  have hread : readRoot .standard "ru" (rootNode "ru" (oneMessage text)) =
      .ok ⟨(oneMessage text).map fun part => (part.name, part.messages), []⟩ :=
    readRoot_rootNode (checkVersion_standard "ru") (by decide) hsections
  simp only [ofDocument, hfound, russian, hread]

/-- Characters that are not of ASCII are written as they are. -/
theorem messageDocument_of_not_ascii (front : List Char) {text : List Char}
    (h : ∀ c ∈ text, 128 ≤ c.toNat) : messageDocument front (String.ofList text) =
      (front ++ messageBefore) ++ (text ++ messageAfter) := by
  have hescape : escaped (String.ofList text) = text := by
    rw [escaped, String.toList_ofList]
    induction text with
    | nil => rfl
    | cons c rest ih =>
        have hc := h c List.mem_cons_self
        have hplain : escape c = [c] := escape.eq_4 c
          (ne_of_not_ascii (by decide) hc) (ne_of_not_ascii (by decide) hc)
          (ne_of_not_ascii (by decide) hc)
        rw [List.flatMap_cons, hplain, ih fun d hd => h d (List.mem_cons_of_mem _ hd)]
        rfl
  rw [messageDocument, hescape, List.append_assoc]

theorem writable_of_not_ascii {text : List Char} (hne : text ≠ [])
    (h : ∀ c ∈ text, 128 ≤ c.toNat ∧ isCharacter c = true) :
    Writable (String.ofList text) := by
  obtain ⟨c, rest, rfl⟩ := List.exists_cons_of_ne_nil hne
  have hmark {d mark : Char} (hmark : mark.toNat < 128) (hd : d ∈ c :: rest) : d ≠ mark :=
    ne_of_not_ascii hmark (h d hd).1
  refine ⟨?_, Or.inr ⟨c, ?_, ?_⟩⟩
  · rw [String.toList_ofList]
    exact fun d hd => ⟨(h d hd).2, hmark (by decide) hd⟩
  · rw [String.toList_ofList]
    exact List.mem_cons_self
  · exact ⟨hmark (by decide) List.mem_cons_self, hmark (by decide) List.mem_cons_self,
      hmark (by decide) List.mem_cons_self⟩

theorem ofCharacters_message {front : List Char} {charset : Charset} {text : List Char}
    (hfront : IsDeclaration front charset) (hne : text ≠ [])
    (h : ∀ c ∈ text, 128 ≤ c.toNat ∧ isCharacter c = true) :
    ofCharacters .standard russian ((front ++ messageBefore) ++ (text ++ messageAfter)) =
      ⟨.ok ⟨russian, [("Ui", [("a", Message.ofPhrase ("a", String.ofList text))])]⟩, []⟩ := by
  have hpercent : '%' ∉ (String.ofList text).toList := by
    rw [String.toList_ofList]
    exact fun hmem => absurd (h _ hmem).1 (by decide)
  rw [← messageDocument_of_not_ascii front fun c hc => (h c hc).1,
    ofCharacters_messageDocument hfront (writable_of_not_ascii hne h) hpercent]
  rfl

/-- A message with a character beyond ASCII is read as it is from bytes, and otherwise or not at all
from the text. -/
theorem ofText_ne_ofBytes_message {front : List Char} {charset : Charset}
    (hfront : IsDeclaration front charset) {byte : UInt8} {c : Char} (hc : 128 ≤ c.toNat)
    (hbyte : charset.single? byte = some c) {text : String}
    (htext : text.toList = (front ++ messageBefore) ++ ([c] ++ messageAfter)) {bytes : ByteArray}
    (hencoded : Encoded charset text bytes) :
    ofText .standard russian text ≠ ofBytes .standard russian bytes := by
  intro hsame
  have hbefore : ∀ d ∈ front ++ messageBefore, d.toNat < 128 :=
    List.forall_mem_append.mpr ⟨hfront.ascii, ascii_messageBefore⟩
  have hmisread := (Charset.isSingle_of_single? hbyte).decode?_utf8_of_ascii hbefore
    ascii_messageAfter c
  have hlone : ∀ d ∈ [c], 128 ≤ d.toNat ∧ isCharacter d = true :=
    List.forall_mem_singleton.mpr ⟨hc, Charset.isCharacter_of_single? hbyte hc⟩
  rw [hencoded.ofText, hencoded.ofBytes, toUTF8_eq, htext, hmisread,
    ofCharacters_message hfront (List.cons_ne_nil c []) hlone] at hsame
  cases hcs : (String.utf8EncodeChar c).mapM charset.single? with
  | none =>
      rw [hcs] at hsame
      cases hsame
  | some misread =>
      obtain ⟨hlength, hbeyond⟩ := Charset.misread_of_not_ascii hc hcs
      have hne : misread ≠ [] := List.ne_nil_of_length_pos (by omega)
      rw [hcs, Option.map_some, Option.elim_some, ofCharacters_message hfront hne hbeyond] at hsame
      have htexts : String.ofList misread = String.ofList [c] := by
        simpa [Message.ofPhrase] using hsame
      have hlist : misread = [c] := String.ofList_inj.mp htexts
      rw [hlist] at hlength
      exact Nat.lt_irrefl 1 hlength

/-- For every character beyond ASCII of a character set with one byte for each there is a document
with no other such character that is read otherwise as a text than as bytes. -/
theorem exists_misread {charset : Charset} {byte : UInt8} {c : Char} (hc : 128 ≤ c.toNat)
    (hbyte : charset.single? byte = some c) : ∃ text bytes, Encoded charset text bytes ∧
      (∀ d ∈ text.toList, d.toNat < 128 ∨ d = c) ∧
      ofText .standard russian text ≠ ofBytes .standard russian bytes := by
  have hsingle := Charset.isSingle_of_single? hbyte
  obtain ⟨front, hfront⟩ := hsingle.exists_isDeclaration
  have hchars : ∀ d ∈ (front ++ messageBefore) ++ ([c] ++ messageAfter),
      d.toNat < 128 ∨ d = c := by
    refine List.forall_mem_append.mpr ⟨List.forall_mem_append.mpr ⟨?front, ?before⟩,
      List.forall_mem_append.mpr ⟨?character, ?after⟩⟩
    case front => exact fun d hd => Or.inl (hfront.ascii d hd)
    case before => exact fun d hd => Or.inl (ascii_messageBefore d hd)
    case character => exact fun d hd => Or.inr (List.mem_singleton.mp hd)
    case after => exact fun d hd => Or.inl (ascii_messageAfter d hd)
  obtain ⟨bytes, hbytes⟩ := hsingle.exists_bytes fun d hd => (hchars d hd).elim
    (fun hascii => ⟨_, hsingle.single?_of_ascii hascii⟩) fun heq => ⟨byte, heq ▸ hbyte⟩
  generalize htext : (front ++ messageBefore) ++ ([c] ++ messageAfter) = chars at hchars hbytes
  rw [← String.toList_ofList (l := chars)] at htext hchars hbytes
  have hdeclares : DeclaresCharset (String.ofList chars).toList charset := by
    rw [← htext, List.append_assoc]
    exact hfront.declares _
  have hencoded : Encoded charset (String.ofList chars) bytes := ⟨hdeclares, hbytes⟩
  exact ⟨String.ofList chars, bytes, hencoded, hchars,
    ofText_ne_ofBytes_message hfront hc hbyte htext.symm hencoded⟩

/-- Documents in a character set mean the same as texts and as bytes, as long as they keep to an
alphabet beyond ASCII. -/
def SameAsBytes (charset : Charset) (alphabet : Char → Prop) : Prop :=
  ∀ text bytes, Encoded charset text bytes → (∀ c ∈ text.toList, c.toNat < 128 ∨ alphabet c) →
    ∀ config locale, ofText config locale text = ofBytes config locale bytes

theorem sameAsBytes_iff (charset : Charset) (alphabet : Char → Prop) :
    SameAsBytes charset alphabet ↔ charset = .utf8 ∨
      ∀ c, 128 ≤ c.toNat → alphabet c → ∀ byte, charset.single? byte ≠ some c := by
  constructor
  · refine fun h => Or.inr fun c hc halphabet byte hbyte => ?_
    obtain ⟨text, bytes, hencoded, hchars, hdiffer⟩ := exists_misread hc hbyte
    refine hdiffer (h text bytes hencoded (fun d hd => ?_) .standard russian)
    exact (hchars d hd).imp_right fun heq => by rwa [heq]
  · intro hcharset text bytes hencoded hchars config locale
    have hshared : charset = .utf8 ∨ ∀ c ∈ text.toList, c.toNat < 128 := by
      refine (em (charset = .utf8)).imp_right fun hne c hc => Nat.lt_of_not_le fun hbeyond => ?_
      obtain ⟨byte, hbyte⟩ := hencoded.exists_byte hne c hc
      have halphabet : alphabet c := (hchars c hc).resolve_left (Nat.not_lt.mpr hbeyond)
      exact hcharset.resolve_left hne c hbeyond halphabet byte hbyte
    rw [hencoded.ofText, hencoded.ofBytes, hencoded.decode?_toUTF8 hshared, Option.elim_some]

/-- What a document is read as, from its bytes in the character set that it declares and from its
text. The two are the same in UTF-8, and for the documents over an alphabet just if no character
beyond ASCII in it belongs to the character set. -/
theorem ofText_and_ofBytes (charset : Charset) :
    (∀ text bytes, Encoded charset text bytes → ∀ config locale,
      ofBytes config locale bytes = ofCharacters config locale text.toList ∧
        ofText config locale text =
          (charset.decode? text.toUTF8).elim (malformed locale) (ofCharacters config locale)) ∧
      ∀ alphabet, SameAsBytes charset alphabet ↔ charset = .utf8 ∨
        ∀ c, 128 ≤ c.toNat → alphabet c → ∀ byte, charset.single? byte ≠ some c :=
  ⟨fun _ _ hencoded config locale =>
    ⟨hencoded.ofBytes config locale, hencoded.ofText config locale⟩, sameAsBytes_iff charset⟩

/-- A document in ISO 8859-1 with an accented letter. -/
def accented : String := String.ofList <|
  "<?xml version=\"1.0\" encoding=\"iso-8859-1\"?>\n<!DOCTYPE TS>\n".toList ++
    "<TS version=\"2.1\" language=\"ru\">\n<context>\n    <name>Ui</name>\n".toList ++
    "    <message>\n        <source>a</source>\n".toList ++
    "        <translation>é</translation>\n    </message>\n</context>\n</TS>".toList

def accentedBytes : ByteArray := (accented.toList.map fun c => UInt8.ofNat c.toNat).toByteArray

/-- The accented letter is one character of the bytes, and two of the text. -/
theorem not_same_accented : Encoded .latin1 accented accentedBytes ∧
    ofText .standard russian accented ≠ ofBytes .standard russian accentedBytes := by
  have htext : accented.toList =
      (latin1Declaration ++ messageBefore) ++ (['é'] ++ messageAfter) :=
    String.toList_ofList.trans (by decide +kernel)
  have hbytes : Charset.decode? .latin1 accentedBytes = some accented.toList := by
    rw [Charset.IsSingle.decode? (Or.inl rfl), accentedBytes, toList_toByteArray, htext]
    decide +kernel
  have hdeclares : DeclaresCharset accented.toList .latin1 := by
    rw [htext, List.append_assoc]
    exact isDeclaration_latin1.declares _
  refine ⟨⟨hdeclares, hbytes⟩, ?_⟩
  exact ofText_ne_ofBytes_message isDeclaration_latin1 (by decide)
    (show Charset.single? .latin1 0xe9 = some 'é' by decide) htext ⟨hdeclares, hbytes⟩

end Catalog
end Polyglot
