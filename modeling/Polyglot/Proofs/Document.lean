import Polyglot.Proofs.Growing

/-!
Documents in UTF-8. The bytes of a text are decoded to the text, and what stands before the root of
a written document is passed over, so that only the root is left to be read.
-/

namespace Polyglot.Xml

open Text Reader

/-! ### Bytes -/

theorem toList_loop (bytes : ByteArray) (index : Nat) (taken : List UInt8) :
    ByteArray.toList.loop bytes index taken = taken.reverse ++ bytes.data.toList.drop index := by
  fun_induction ByteArray.toList.loop bytes index taken with
  | case1 index taken hlt ih =>
      have hindex : index < bytes.data.toList.length := by simpa using hlt
      rw [ih, List.drop_eq_getElem_cons hindex]
      simp [ByteArray.get!, hlt]
  | case2 index taken hge =>
      rw [List.drop_eq_nil_of_le (by simpa using Nat.le_of_not_lt hge), List.append_nil]

theorem toList_toByteArray (bytes : List UInt8) : bytes.toByteArray.toList = bytes := by
  rw [ByteArray.toList, toList_loop, List.toList_data_toByteArray]
  rfl

theorem toList_utf8Encode (text : List Char) :
    text.utf8Encode.toList = text.flatMap String.utf8EncodeChar :=
  toList_toByteArray _

theorem toUTF8_eq (text : String) : text.toUTF8 = text.toList.utf8Encode := by
  have hbytes := String.toByteArray_ofList (l := text.toList)
  rwa [String.ofList_toList] at hbytes

theorem decode?_utf8 (text : List Char) :
    Charset.decode? .utf8 text.utf8Encode = some text := by
  have hvalid : text.utf8Encode.IsValidUTF8 := ByteArray.isValidUTF8_utf8Encode
  have hstring : String.fromUTF8? text.utf8Encode = some (String.ofList text) := by
    rw [String.fromUTF8?, dif_pos hvalid]
    rfl
  rw [Charset.decode?, hstring, Option.map_some, String.toList_ofList]

/-- The declaration of a document in UTF-8. -/
def utf8Declaration : List Char := "<?xml version=\"1.0\" encoding=\"utf-8\"?>".toList

theorem read_utf8Declaration (rest : List Char) :
    Declaration.read (utf8Declaration ++ rest) = some ({ charset := some "utf-8".toList }, rest) :=
  rfl

/-- The declaration is of ASCII, so it can be read before the character set is known. -/
theorem charset?_utf8Declaration (rest : List Char) :
    Document.charset? (utf8Declaration ++ rest).utf8Encode =
      some (.utf8, (utf8Declaration ++ rest).utf8Encode) := by
  have hbytes : (utf8Declaration ++ rest).utf8Encode.toList =
      utf8Declaration.flatMap String.utf8EncodeChar ++ rest.flatMap String.utf8EncodeChar := by
    rw [toList_utf8Encode, List.flatMap_append]
  have hmark : Charset.ofMark? (utf8Declaration ++ rest).utf8Encode = none := by
    rw [Charset.ofMark?, hbytes]
    rfl
  have hdeclaration : (utf8Declaration.flatMap String.utf8EncodeChar).map
      (fun byte => Char.ofNat byte.toNat) = utf8Declaration := by
    decide
  rw [Document.charset?, hmark, hbytes, List.map_append, hdeclaration, read_utf8Declaration]
  rfl

theorem unifyLines_of_not_mem {text : List Char} (h : '\r' ∉ text) (taken : List Char) :
    Document.unifyLines taken text = taken.reverse ++ text := by
  induction text generalizing taken with
  | nil => rw [Document.unifyLines, List.append_nil]
  | cons c rest ih =>
      obtain ⟨hc, hrest⟩ := not_or.mp (fun hmem => h (List.mem_cons.mpr hmem))
      have hkept : Document.unifyLines taken (c :: rest) = Document.unifyLines (c :: taken) rest :=
        Document.unifyLines.eq_3 taken c rest (fun _ heq _ => hc heq.symm) fun heq => hc heq.symm
      rw [hkept, ih hrest, List.reverse_cons, List.append_assoc, List.singleton_append]

/-- An admissible text comes out of its bytes as it is. -/
theorem text?_utf8 {rest : List Char}
    (h : Admissible (utf8Declaration ++ rest)) :
    Document.text? (utf8Declaration ++ rest).utf8Encode = some (utf8Declaration ++ rest) := by
  have hall : (utf8Declaration ++ rest).all isCharacter = true :=
    List.all_eq_true.mpr fun c hc => (h c hc).1
  have hreturn : '\r' ∉ utf8Declaration ++ rest := fun hmem => (h _ hmem).2 rfl
  rw [Document.text?, charset?_utf8Declaration, Option.bind_eq_bind, Option.bind_some]
  dsimp only
  rw [decode?_utf8, Option.bind_eq_bind, Option.bind_some, hall, unifyLines_of_not_mem hreturn]
  rfl

/-! ### What stands before the root -/

/-- A document type declaration that declares nothing, on a line of its own. -/
def emptyDoctype : List Char := "\n<!DOCTYPE TS>\n".toList

/-- The beginning of the start tag of a root with attributes. -/
def rootBeginning : List Char := "<TS ".toList

theorem skipAsides_doctype (rest : List Char) :
    Document.skipAsides (emptyDoctype ++ (rootBeginning ++ rest)) =
      some ((), "<!DOCTYPE TS>\n<TS ".toList ++ rest) :=
  rfl

theorem read_doctype (rest : List Char) :
    Doctype.read (" TS>\n<TS ".toList ++ rest) = some ({}, "\n<TS ".toList ++ rest) :=
  rfl

theorem skipAsides_root (rest : List Char) :
    Document.skipAsides ("\n<TS ".toList ++ rest) = some ((), rootBeginning ++ rest) :=
  rfl

/-- Behind a declaration, with nothing declared and nothing after the root but what is passed over,
a document is its root. -/
theorem read_of_readRoot {front rest after : List Char} {declaration : Declaration} {root : Node}
    (hfront : ∀ rest, Declaration.read (front ++ rest) = some (declaration, rest))
    (hroot : ∀ references,
      Document.readRoot references (rootBeginning ++ rest) = some (root, after))
    (hafter : Document.skipAsides after = some ((), [])) :
    Document.read (front ++ (emptyDoctype ++ (rootBeginning ++ rest))) =
      some (⟨{}, root⟩, []) := by
  have hkeyword : accept "<!DOCTYPE".toList ("<!DOCTYPE TS>\n<TS ".toList ++ rest) =
      some (true, " TS>\n<TS ".toList ++ rest) := rfl
  rw [Document.read, bind_of_eq (hfront _), bind_of_eq (skipAsides_doctype rest),
    bind_of_eq hkeyword, if_pos rfl, bind_of_eq (read_doctype rest),
    bind_of_eq (skipAsides_root rest), bind_of_eq (pure_apply _ _)]
  dsimp only
  rw [bind_of_eq (hroot _), bind_of_eq hafter, pure_apply]

/-- The bytes of a written document are well-formed if its root is. -/
theorem parse?_of_readRoot {text rest after : List Char} {root : Node}
    (htext : text = rootBeginning ++ rest) (h : Admissible text)
    (hroot : ∀ references, Document.readRoot references text = some (root, after))
    (hafter : Document.skipAsides after = some ((), [])) :
    Document.parse? (utf8Declaration ++ (emptyDoctype ++ text)).utf8Encode = some ⟨{}, root⟩ := by
  have hdeclaration : Admissible utf8Declaration := by decide
  have hdoctype : Admissible emptyDoctype := by decide
  rw [Document.parse?, text?_utf8 (hdeclaration.append (hdoctype.append h)), Option.bind_some,
    readAll?]
  subst htext
  rw [read_of_readRoot read_utf8Declaration hroot hafter]

end Polyglot.Xml
