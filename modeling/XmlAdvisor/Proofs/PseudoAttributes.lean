import Mathlib.Data.List.TakeWhile
import XmlAdvisor.Proofs.DefinitionReading
import XmlAdvisor.Tree.Instruction

/-!
# Pairs in the data of an instruction

How pairs are written in the data of an instruction, and that they are read back as they are
written.

**Bytes.**  A text is kept in UTF-8, and a reader may tell its places by counting bytes: it looks
for a mark, adds the bytes of marks that it knows, and cuts the text there.  Such a place may be
inside a character, where nothing can be cut.  `pairsByBytes?` reads pairs in this way and fails at
the first cut that cannot be made.

* `pairSpellings`, `dataSpellings` — the texts that pairs may be written with, as languages.
* `pseudoAttribute?_append`, `pseudoAttribute?_of_mem_spellings` — what is read as the first pair.
* `sliceToByte?_append`, `sliceFromByte?_append` — behind the bytes of a text, what follows it can
  be cut off.
* **`pairsByBytes?_eq`** — by counting bytes the same is read, and on no data is a character cut.
* **`pseudoAttributes_of_mem_spellings`** — pairs are read back in their order.
-/

namespace XmlAdvisor

/-! ## How pairs are written -/

namespace PairSpelling

open Spelling (text quotedValue)

/-- White space of any kind, which may be missing. -/
def gap : Language Char :=
  {w | ∀ c ∈ w, isBlank c = true}

/-- Whether characters are a name: some characters, and no equals signs, quotation marks and
blanks. -/
def isPairName (cs : List Char) : Bool :=
  !cs.isEmpty && cs.all fun c => c != '=' && c != '"' && c != '\'' && !isBlank c

/-- A name. -/
def pairName (n : String) : Language Char :=
  {w | w = n.toList ∧ isPairName w = true}

/-- How a pair is written, with the white space before it.  Either quotation mark will do that does
not stand in the value. -/
def pairSpellings (name value : String) : Language Char :=
  gap * (pairName name * (gap * (text "=" * (gap * quotedValue value))))

/-- How data is written: pairs one behind another, and at the end anything without an equals
sign. -/
def dataSpellings : List (String × String) → Language Char
  | [] => {w | '=' ∉ w}
  | (name, value) :: more => pairSpellings name value * dataSpellings more

lemma mem_pairSpellings {name value : String} {mark : Char} (hname : isPairName name.toList = true)
    (hmark : mark = '"' ∨ mark = '\'') (hvalue : mark ∉ value.toList)
    {blanks blanks' blanks'' : List Char}
    (h : ∀ c ∈ blanks, isBlank c = true) (h' : ∀ c ∈ blanks', isBlank c = true)
    (h'' : ∀ c ∈ blanks'', isBlank c = true) :
    blanks ++ (name.toList ++
      (blanks' ++ ("=".toList ++ (blanks'' ++ mark :: (value.toList ++ [mark]))))) ∈
      pairSpellings name value := by
  have hquoted : mark :: (value.toList ++ [mark]) ∈ quotedValue value := ⟨mark, hmark, hvalue, rfl⟩
  have hequals : "=".toList ++ (blanks'' ++ mark :: (value.toList ++ [mark])) ∈
      text "=" * (gap * quotedValue value) :=
    Language.append_mem_mul rfl (Language.append_mem_mul h'' hquoted)
  exact Language.append_mem_mul h
    (Language.append_mem_mul ⟨rfl, hname⟩ (Language.append_mem_mul h' hequals))

lemma of_isPairName {cs : List Char} (h : isPairName cs = true) {c : Char} (hc : c ∈ cs) :
    c ≠ '=' ∧ isBlank c = false := by
  rw [isPairName, Bool.and_eq_true, List.all_eq_true] at h
  have hplain := h.2 c hc
  simp only [Bool.and_eq_true, bne_iff_ne, Bool.not_eq_true'] at hplain
  exact ⟨hplain.1.1.1, hplain.2⟩

lemma equals_notMem_of_blank {cs : List Char} (h : ∀ c ∈ cs, isBlank c = true) : '=' ∉ cs :=
  fun hmem => Bool.false_ne_true (h '=' hmem)

lemma lasts_pairSpellings (name value : String) : Lasts 1 (pairSpellings name value) :=
  (lasts_text (by decide)).ahead.behind.behind.behind

/-- Each pair takes a character at least. -/
lemma lasts_dataSpellings : ∀ pairs : List (String × String), Lasts pairs.length
    (dataSpellings pairs)
  | [] => lasts_zero
  | (name, value) :: more => by
      rw [List.length_cons, Nat.add_comm]
      exact (lasts_pairSpellings name value).mul (lasts_dataSpellings more)

end PairSpelling

open PairSpelling

/-! ## Blanks around a text -/

section Blanks

variable {before after cs : List Char}

lemma trimStart_append (h : ∀ c ∈ before, isBlank c = true) (cs : List Char) :
    trimStart (before ++ cs) = trimStart cs :=
  List.dropWhile_append_of_pos h

lemma trimEnd_append (h : ∀ c ∈ after, isBlank c = true) (cs : List Char) :
    trimEnd (cs ++ after) = trimEnd cs := by
  rw [trimEnd, List.reverse_append,
    List.dropWhile_append_of_pos fun c hc => h c (List.mem_reverse.mp hc), trimEnd]

lemma dropWhile_isBlank_of_plain (h : ∀ c ∈ cs, isBlank c = false) : cs.dropWhile isBlank = cs := by
  cases cs with
  | nil => rfl
  | cons c cs => rw [List.dropWhile_cons_of_neg (by rw [h c List.mem_cons_self]; decide)]

/-- A text without blanks is what is left of it between blanks. -/
lemma trim_between (hbefore : ∀ c ∈ before, isBlank c = true) (hcs : ∀ c ∈ cs, isBlank c = false)
    (hafter : ∀ c ∈ after, isBlank c = true) : trim (before ++ (cs ++ after)) = cs := by
  rw [trim, trimStart_append hbefore]
  cases cs with
  | nil =>
      have hnil : trimStart after = [] := List.dropWhile_eq_nil_iff.mpr hafter
      rw [List.nil_append, hnil]
      rfl
  | cons c cs =>
      have hstart : trimStart (c :: cs ++ after) = c :: cs ++ after :=
        List.dropWhile_cons_of_neg (by rw [hcs c List.mem_cons_self]; decide)
      rw [hstart, trimEnd_append hafter, trimEnd, dropWhile_isBlank_of_plain, List.reverse_reverse]
      exact fun d hd => hcs d (List.mem_reverse.mp hd)

end Blanks

/-! ## Reading the first pair -/

/-- The value between quotation marks that a text begins with, and what is behind it. -/
def quotedValue? : List Char → Option (List Char × List Char)
  | [] => none
  | mark :: rest => if mark == '"' || mark == '\'' then splitAtFirst [mark] rest else none

lemma splitAtFirst_eq_none {mark : Char} {cs : List Char} (h : mark ∉ cs) :
    splitAtFirst [mark] cs = none := by
  induction cs with
  | nil => rfl
  | cons c cs ih =>
      rw [List.mem_cons, not_or] at h
      simp [splitAtFirst, List.isPrefixOf, h.1, ih h.2]

section First

variable {before data : List Char}

/-- A pair is read around the first equals sign. -/
lemma pseudoAttribute?_append (h : '=' ∉ before) (after : List Char) :
    pseudoAttribute? (before ++ '=' :: after) = (quotedValue? (trimStart after)).map
      fun (value, rest) => ((String.ofList (trim before), String.ofList value), rest) := by
  rw [pseudoAttribute?, DtdScan.splitAtFirst_mark h]
  dsimp only [Option.bind_eq_bind, Option.bind_some]
  cases trimStart after with
  | nil => rfl
  | cons mark rest =>
      rw [quotedValue?]
      dsimp only
      split_ifs
      · cases splitAtFirst [mark] rest <;> rfl
      · rfl

lemma pseudoAttribute?_eq_none (h : '=' ∉ data) : pseudoAttribute? data = none := by
  rw [pseudoAttribute?, splitAtFirst_eq_none h]
  rfl

/-- Blanks before a pair make no difference. -/
lemma pseudoAttribute?_trimStart (data : List Char) :
    pseudoAttribute? (trimStart data) = pseudoAttribute? data := by
  have hblanks : ∀ c ∈ data.takeWhile isBlank, isBlank c = true :=
    fun c hc => List.mem_takeWhile_imp hc
  have hsplit : data = data.takeWhile isBlank ++ trimStart data :=
    List.takeWhile_append_dropWhile.symm
  by_cases hequals : '=' ∈ trimStart data
  · obtain ⟨before, after, hdata, hbefore⟩ := List.eq_append_cons_of_mem hequals
    have hfree : '=' ∉ data.takeWhile isBlank ++ before := by
      rw [List.mem_append, not_or]
      exact ⟨equals_notMem_of_blank hblanks, hbefore⟩
    conv_rhs => rw [hsplit]
    rw [hdata, ← List.append_assoc, pseudoAttribute?_append hbefore,
      pseudoAttribute?_append hfree, trim, trim,
      trimStart_append hblanks]
  · have hnone : '=' ∉ data := by
      rw [hsplit, List.mem_append, not_or]
      exact ⟨equals_notMem_of_blank hblanks, hequals⟩
    rw [pseudoAttribute?_eq_none hequals, pseudoAttribute?_eq_none hnone]

/-- A pair is read as it is written. -/
lemma pseudoAttribute?_of_mem_spellings {name value : String} {w : List Char}
    (hw : w ∈ pairSpellings name value) (rest : List Char) :
    pseudoAttribute? (w ++ rest) = some ((name, value), rest) := by
  obtain ⟨blanks, hblanks, _, ⟨_, ⟨rfl, hname⟩, _, hw, rfl⟩, rfl⟩ := hw
  obtain ⟨blanks', hblanks', _, ⟨_, rfl, _, ⟨blanks'', hblanks'', _, hw, rfl⟩, rfl⟩, rfl⟩ := hw
  obtain ⟨mark, hmark, hvalue, rfl⟩ := hw
  have hbefore : '=' ∉ blanks ++ (name.toList ++ blanks') := by
    simp only [List.mem_append, not_or]
    exact ⟨equals_notMem_of_blank hblanks, fun hc => (of_isPairName hname hc).1 rfl,
      equals_notMem_of_blank hblanks'⟩
  have hquote : trimStart (mark :: (value.toList ++ mark :: rest)) =
      mark :: (value.toList ++ mark :: rest) := by
    rcases hmark with rfl | rfl <;> rfl
  have hsplit : blanks ++ (name.toList ++ (blanks' ++ ("=".toList ++
      (blanks'' ++ mark :: (value.toList ++ [mark]))))) ++ rest =
      (blanks ++ (name.toList ++ blanks')) ++
        '=' :: (blanks'' ++ mark :: (value.toList ++ mark :: rest)) := by
    simp
  rw [hsplit, pseudoAttribute?_append hbefore, trimStart_append hblanks'', hquote, quotedValue?,
    if_pos (by simpa using hmark), DtdScan.splitAtFirst_mark hvalue,
    trim_between hblanks (fun c hc => (of_isPairName hname hc).2) hblanks']
  simp

end First

/-- Pairs are read as they are written. -/
lemma pseudoAttributesUpTo_of_mem_spellings {pairs : List (String × String)} {w : List Char}
    {count : Nat}
    (hw : w ∈ dataSpellings pairs) (hcount : pairs.length ≤ count) :
    pseudoAttributesUpTo count w = pairs := by
  induction pairs generalizing w count with
  | nil =>
      cases count with
      | zero => rfl
      | succ count => rw [pseudoAttributesUpTo, pseudoAttribute?_eq_none hw]
  | cons pair more ih =>
      obtain ⟨u, hu, v, hv, rfl⟩ := hw
      cases count with
      | zero => cases hcount
      | succ count =>
          have hmore := ih hv (Nat.le_of_succ_le_succ hcount)
          rw [pseudoAttributesUpTo, pseudoAttribute?_of_mem_spellings hu]
          dsimp only
          rw [hmore]

/-! ## Cutting at bytes -/

/-- The part of a text before a place that is told by the bytes before it; none if the place is
inside a character or behind the end. -/
def sliceToByte? (text : String) (bytes : Nat) : Option String :=
  if h : (⟨bytes⟩ : String.Pos.Raw).IsValid text
    then some (text.sliceTo (text.pos ⟨bytes⟩ h)).copy else none

/-- The part of a text behind a place that is told by the bytes before it; none if the place is
inside a character or behind the end. -/
def sliceFromByte? (text : String) (bytes : Nat) : Option String :=
  if h : (⟨bytes⟩ : String.Pos.Raw).IsValid text
    then some (text.sliceFrom (text.pos ⟨bytes⟩ h)).copy else none

/-- The bytes before the first place of a character. -/
def byteOf? (mark : Char) (text : String) : Option Nat :=
  if mark ∈ text.toList
    then some (String.ofList (text.toList.takeWhile (· != mark))).utf8ByteSize else none

section Slices

variable {before : List Char} {bytes : Nat}

lemma isValid_ofList_append (h : bytes = (String.ofList before).utf8ByteSize) (after : List Char) :
    (⟨bytes⟩ : String.Pos.Raw).IsValid (String.ofList (before ++ after)) := by
  rw [h, String.ofList_append]
  exact String.Pos.Raw.isValid_rawEndPos.append_right (String.ofList after)

/-- The bytes of a text tell where it ends. -/
lemma splits_ofList_append (h : bytes = (String.ofList before).utf8ByteSize) (after : List Char) :
    ((String.ofList (before ++ after)).pos ⟨bytes⟩ (isValid_ofList_append h after)).Splits
      (String.ofList before) (String.ofList after) := by
  subst h
  exact ⟨String.ofList_append, rfl⟩

lemma sliceToByte?_append (h : bytes = (String.ofList before).utf8ByteSize) (after : List Char) :
    sliceToByte? (String.ofList (before ++ after)) bytes = some (String.ofList before) := by
  rw [sliceToByte?, dif_pos (isValid_ofList_append h after),
    (splits_ofList_append h after).copy_sliceTo_eq]

lemma sliceFromByte?_append (h : bytes = (String.ofList before).utf8ByteSize) (after : List Char) :
    sliceFromByte? (String.ofList (before ++ after)) bytes = some (String.ofList after) := by
  rw [sliceFromByte?, dif_pos (isValid_ofList_append h after),
    (splits_ofList_append h after).copy_sliceFrom_eq]

end Slices

lemma utf8ByteSize_ofList_append (cs ds : List Char) : (String.ofList (cs ++ ds)).utf8ByteSize =
    (String.ofList cs).utf8ByteSize + (String.ofList ds).utf8ByteSize := by
  rw [String.ofList_append, String.utf8ByteSize_append]

lemma byteOf?_append {mark : Char} {before : List Char} (h : mark ∉ before) (after : List Char) :
    byteOf? mark (String.ofList (before ++ mark :: after)) =
    some (String.ofList before).utf8ByteSize := by
  have hbefore : ∀ c ∈ before, (c != mark) = true :=
    fun c hc => bne_iff_ne.mpr fun heq => h (heq ▸ hc)
  rw [byteOf?, String.toList_ofList, if_pos (by simp), List.takeWhile_append_of_pos hbefore]
  simp

lemma byteOf?_eq_none {mark : Char} {cs : List Char} (h : mark ∉ cs) :
    byteOf? mark (String.ofList cs) = none := by
  rw [byteOf?, String.toList_ofList, if_neg h]

/-! ## Reading by counting bytes

In the two functions on a single pair, the outer value is missing where a cut fails, and the inner
one where the text has no pair. -/

/-- A text without the blanks at its start. -/
def trimmedStart (text : String) : String :=
  String.ofList (trimStart text.toList)

/-- The value between quotation marks that a text begins with, and what is behind it.  A quotation
mark has one byte. -/
def valueAtBytes? (text : String) : Option (Option (String × String)) :=
  match text.toList with
  | [] => some none
  | mark :: _ =>
    if mark == '"' || mark == '\'' then do
      let inside ← sliceFromByte? text 1
      match byteOf? mark inside with
      | none => some none
      | some bytes => do
        let upToEnd ← sliceToByte? text (1 + bytes)
        let value ← sliceFromByte? upToEnd 1
        let behind ← sliceFromByte? text (bytes + 2)
        some (some (value, behind))
    else some none

/-- The first pair of a text and what is behind it. -/
def pairAtBytes? (text : String) : Option (Option ((String × String) × String)) :=
  match byteOf? '=' text with
  | none => some none
  | some bytes => do
    let before ← sliceToByte? text bytes
    let after ← sliceFromByte? text (bytes + 1)
    let found ← valueAtBytes? (trimmedStart after)
    some (found.map fun (value, behind) => ((trimmed before, value), behind))

/-- At most `count` pairs of a text. -/
def pairsAtBytes? : (count : Nat) → String → Option (List (String × String))
  | 0, _ => some []
  | count + 1, text => do
    match ← pairAtBytes? text with
    | none => some []
    | some (pair, behind) => do
      let more ← pairsAtBytes? count (trimmedStart behind)
      some (pair :: more)

/-- The pairs that the data of an instruction consists of. -/
def pairsByBytes? (data : String) : Option (List (String × String)) :=
  pairsAtBytes? data.length (trimmedStart data)

lemma trimmedStart_ofList (cs : List Char) : trimmedStart (String.ofList cs) = String.ofList
    (trimStart cs) := by
  rw [trimmedStart, String.toList_ofList]

lemma trimmed_ofList (cs : List Char) : trimmed (String.ofList cs) = String.ofList (trim cs) := by
  rw [trimmed, String.toList_ofList]

section Marked

variable {mark : Char} (hone : 1 = (String.ofList [mark]).utf8ByteSize)
include hone

/-- Up to the mark behind a value. -/
lemma sliceToByte?_marked (value behind : List Char) :
    sliceToByte? (String.ofList (mark :: (value ++ mark :: behind)))
    (1 + (String.ofList value).utf8ByteSize) =
      some (String.ofList (mark :: value)) := by
  have hend : 1 + (String.ofList value).utf8ByteSize =
      (String.ofList (mark :: value)).utf8ByteSize := by
    rw [← List.singleton_append, utf8ByteSize_ofList_append, ← hone]
  exact sliceToByte?_append hend (mark :: behind)

/-- Behind both marks of a value. -/
lemma sliceFromByte?_marked (value behind : List Char) :
    sliceFromByte? (String.ofList (mark :: (value ++ mark :: behind)))
    ((String.ofList value).utf8ByteSize + 2) =
      some (String.ofList behind) := by
  have hend : (String.ofList value).utf8ByteSize + 2 =
      (String.ofList ([mark] ++ value ++ [mark])).utf8ByteSize := by
    rw [utf8ByteSize_ofList_append, utf8ByteSize_ofList_append, ← hone]
    omega
  have hcut := sliceFromByte?_append hend behind
  rwa [List.append_assoc, List.append_assoc, List.singleton_append, List.singleton_append] at hcut

end Marked

/-- A value is cut out as it is read. -/
lemma valueAtBytes?_eq (text : List Char) : valueAtBytes? (String.ofList text) =
    some ((quotedValue? text).map fun (value, rest) =>
      (String.ofList value, String.ofList rest)) := by
  rw [valueAtBytes?, String.toList_ofList]
  cases text with
  | nil => rfl
  | cons mark rest =>
      rw [quotedValue?]
      dsimp only
      split_ifs with hmark
      · have hone : 1 = (String.ofList [mark]).utf8ByteSize := by
          rw [Bool.or_eq_true, beq_iff_eq, beq_iff_eq] at hmark
          rcases hmark with rfl | rfl <;> rfl
        have hinside (inside : List Char) :
            sliceFromByte? (String.ofList (mark :: inside)) 1 = some (String.ofList inside) :=
          sliceFromByte?_append hone inside
        rw [hinside]
        by_cases hclosed : mark ∈ rest
        · obtain ⟨value, behind, rfl, hvalue⟩ := List.eq_append_cons_of_mem hclosed
          simp only [Option.bind_eq_bind, Option.bind_some, byteOf?_append hvalue, hinside,
            sliceToByte?_marked hone, sliceFromByte?_marked hone, DtdScan.splitAtFirst_mark hvalue,
            Option.map_some]
        · simp only [Option.bind_eq_bind, Option.bind_some, byteOf?_eq_none hclosed,
            splitAtFirst_eq_none hclosed, Option.map_none]
      · rfl

/-- A pair is cut out as it is read. -/
lemma pairAtBytes?_eq (data : List Char) : pairAtBytes? (String.ofList data) =
    some ((pseudoAttribute? data).map fun (pair, rest) => (pair, String.ofList rest)) := by
  rw [pairAtBytes?]
  by_cases hequals : '=' ∈ data
  · obtain ⟨before, after, rfl, hbefore⟩ := List.eq_append_cons_of_mem hequals
    have hbehind : (String.ofList before).utf8ByteSize + 1 =
        (String.ofList (before ++ ['='])).utf8ByteSize := by
      rw [utf8ByteSize_ofList_append]
      rfl
    have hafter := sliceFromByte?_append hbehind after
    rw [List.append_assoc, List.singleton_append] at hafter
    rw [byteOf?_append hbefore, pseudoAttribute?_append hbefore]
    dsimp only
    rw [sliceToByte?_append rfl, hafter]
    simp only [Option.bind_eq_bind, Option.bind_some, trimmedStart_ofList, trimmed_ofList,
      valueAtBytes?_eq,
      Option.map_map]
    rfl
  · rw [byteOf?_eq_none hequals, pseudoAttribute?_eq_none hequals]
    rfl

lemma pairsAtBytes?_eq (count : Nat) (data : List Char) :
    pairsAtBytes? count (trimmedStart (String.ofList data)) =
    some (pseudoAttributesUpTo count data) := by
  induction count generalizing data with
  | zero => rfl
  | succ count ih =>
      rw [pairsAtBytes?, trimmedStart_ofList, pairAtBytes?_eq, pseudoAttribute?_trimStart,
        pseudoAttributesUpTo]
      cases pseudoAttribute? data with
      | none => rfl
      | some found => simp [ih]

/-- **Reading by counting bytes never cuts a character**, and reads what is read by characters. -/
theorem pairsByBytes?_eq (data : String) :
    pairsByBytes? data = some (pseudoAttributes (some data)) := by
  have h := pairsAtBytes?_eq data.length data.toList
  rwa [String.ofList_toList] at h

/-! ## Reading back -/

/-- **Pairs that are written are read back**, all of them in their order, and without cutting a
character. -/
theorem pseudoAttributes_of_mem_spellings {data : String} {pairs : List (String × String)}
    (h : data.toList ∈ dataSpellings pairs) :
    pseudoAttributes (some data) = pairs ∧ pairsByBytes? data = some pairs := by
  have hread : pseudoAttributes (some data) = pairs :=
    pseudoAttributesUpTo_of_mem_spellings h (lasts_dataSpellings pairs data.toList h)
  exact ⟨hread, by rw [pairsByBytes?_eq, hread]⟩

/-- Equals signs, the other quotation mark and characters of several bytes may stand in values. -/
theorem pseudoAttributes_of_mem_spellings_titled :
    let data := "href = 'a=b.rng'\ttitle=\"größe > 'ß'\"type=''?"
    let pairs := [("href", "a=b.rng"), ("title", "größe > 'ß'"), ("type", "")]
    data.toList ∈ dataSpellings pairs ∧ pseudoAttributes (some data) = pairs ∧
      pairsByBytes? data = some pairs := by
  intro data pairs
  have hnone : ∀ c ∈ [], isBlank c = true := List.forall_mem_nil _
  have hspace : ∀ c ∈ [' '], isBlank c = true := List.forall_mem_singleton.mpr (by decide)
  have htab : ∀ c ∈ ['\t'], isBlank c = true := List.forall_mem_singleton.mpr (by decide)
  have hhref : "href = 'a=b.rng'".toList ∈ pairSpellings "href" "a=b.rng" :=
    mem_pairSpellings (by decide) (.inr rfl) (by decide) hnone hspace hspace
  have htitle : "\ttitle=\"größe > 'ß'\"".toList ∈ pairSpellings "title" "größe > 'ß'" :=
    mem_pairSpellings (by decide) (.inl rfl) (by decide) htab hnone hnone
  have htype : "type=''".toList ∈ pairSpellings "type" "" :=
    mem_pairSpellings (by decide) (.inr rfl) (by decide) hnone hnone hnone
  have hend : '=' ∉ ['?'] := by decide
  have h : data.toList ∈ dataSpellings pairs :=
    ⟨_, hhref, _, ⟨_, htitle, _, ⟨_, htype, _, hend, rfl⟩, rfl⟩, by decide⟩
  exact ⟨h, pseudoAttributes_of_mem_spellings h⟩

end XmlAdvisor
