import XmlAdvisor.Proofs.QualifiedNames
import XmlAdvisor.Proofs.TagPlaces
import Mathlib.Data.List.Infix

/-!
# What tokens spell

The opening of a tag, an attribute and a piece of text tell where they stand, and the text has there
what they say.

**Spellings.**  A name may be written with a colon in front, which belongs to its span but not to
the name (`Spells`).  So the span of a name covers the name exactly if it does not begin with a
colon (`Spells.covers_iff`, `Opens.covers_iff`).

**Values.**  What is read as a value stops in front of the quotation mark that it began with, so the
mark does not occur in the value (`InQuotes`).

* `Covers` — whether a slice of the text is what a span is said to cover.
* `Token.Spelled` — whether the text has at a token what the token says.
* **`spelled_of_mem_scanAll`** — all tokens of a text are spelled in it.
-/

namespace XmlAdvisor

/-! ## Slices -/

/-- Whether a slice of the text is what a span is said to cover. -/
def Covers (text : List Char) (span : Span) (s : String) : Prop :=
  slice text span.start span.stop = .ok s

instance (text : List Char) (span : Span) (s : String) : Decidable (Covers text span s) :=
  inferInstanceAs (Decidable (slice text span.start span.stop = .ok s))

/-- Whether a span that covers a value stands between two quotation marks that are the same and do
not occur in the value. -/
def InQuotes (text : List Char) (span : Span) (value : String) : Prop :=
  ∃ mark, (mark = '"' ∨ mark = '\'') ∧ mark ∉ value.toList ∧ 0 < span.start ∧
    text[span.start - 1]? = some mark ∧ text[span.stop]? = some mark

variable {text : List Char}

/-- What stands in the text at an offset is covered from there on. -/
lemma covers_of_stands {w : List Char} {a : Nat} (h : w <+: text.drop a) (ha : a ≤ text.length) :
    Covers text ⟨a, a + w.length⟩ (String.ofList w) := by
  have hlength := h.length_le
  rw [List.length_drop] at hlength
  have hcut : (text.drop a).take w.length = w := List.prefix_iff_eq_take.mp h |>.symm
  show slice text a (a + w.length) = _
  rw [slice, if_neg (by omega), if_neg (by omega), sliceChars, Nat.min_eq_left (by omega),
    Nat.max_eq_right (by omega), Nat.add_sub_cancel_left, hcut]

lemma le_length_of_stands {w : List Char} {a : Nat} (h : w <+: text.drop a) (hw : w ≠ []) :
    a ≤ text.length := by
  have hlength := h.length_le
  have hpos := List.length_pos_iff.mpr hw
  rw [List.length_drop] at hlength
  omega

/-- A span covers one text at most. -/
lemma Covers.unique {span : Span} {s s' : String} (h : Covers text span s)
    (h' : Covers text span s') : s = s' := by
  rw [Covers, h] at h'
  exact Except.ok.inj h'

/-- A span that covers something ends inside the text. -/
lemma Covers.inside {span : Span} {s : String} (h : Covers text span s) :
    span.start ≤ text.length ∧ span.stop ≤ text.length := by
  rw [Covers, slice] at h
  split_ifs at h with hstart hstop
  exact ⟨Nat.not_lt.mp hstart, Nat.not_lt.mp hstop⟩

/-! ## Spellings -/

/-- Whether a name can be written as `w`: as it is, or with a colon in front. -/
structure Spells (w : List Char) (name : String) : Prop where
  begins : ∃ c ∈ name.toList.head?, c ≠ ':'
  written : w = name.toList ∨ w = ':' :: name.toList

namespace Spells

variable {w : List Char} {name : String}

lemma ne_nil (h : Spells w name) : w ≠ [] := by
  rintro rfl
  obtain ⟨c, hc, -⟩ := h.begins
  rcases h.written with heq | heq
  · rw [← heq] at hc
    cases hc
  · cases heq

/-- A name is written as it is if it is not written with a colon in front. -/
lemma eq_iff (h : Spells w name) : w = name.toList ↔ w.head? ≠ some ':' := by
  obtain ⟨c, hc, hne⟩ := h.begins
  rw [Option.mem_def] at hc
  constructor
  · rintro rfl
    rw [hc]
    exact fun heq => hne (Option.some.inj heq)
  · intro hhead
    refine h.written.resolve_right ?_
    rintro rfl
    exact hhead rfl

lemma length_le (h : Spells w name) : name.toList.length ≤ w.length := by
  rcases h.written with rfl | rfl
  · exact Nat.le_refl _
  · exact Nat.le_succ _

/-- As many characters of a spelling as the name has are the name if there is no colon in front. -/
lemma take_eq_iff (h : Spells w name) :
    w.take name.toList.length = name.toList ↔ w.head? ≠ some ':' := by
  rw [← h.eq_iff]
  refine ⟨fun htake => ?_, fun heq => by rw [heq, List.take_length]⟩
  rcases h.written with heq | heq
  · exact heq
  · -- the name would begin with the colon
    obtain ⟨c, hc, hne⟩ := h.begins
    rw [heq] at htake
    cases hname : name.toList with
    | nil =>
        rw [hname] at hc
        cases hc
    | cons d more =>
        rw [hname, List.length_cons, List.take_succ_cons] at htake
        rw [hname] at hc
        cases hc
        exact absurd (List.cons.inj htake).1.symm hne

end Spells

/-- What is read of a qualified name is a spelling of it. -/
lemma Scan.exists_spelling {c c' : Cursor} {n : QualifiedName} (h : qualifiedName c = .ok (n, c')) :
    ∃ w, Spells w n.text ∧ w <+: c.rest ∧ c' = c.advance w.length := by
  obtain ⟨q, l, rfl, rfl, hl, hq, hcolon, hwritten, -⟩ := exists_parts h
  refine ⟨c.rest.takeWhile isNameChar, ?_, List.takeWhile_prefix _, rfl⟩
  have hbegins {cs : List Char} (hne : cs ≠ []) (hnone : ':' ∉ cs) : ∃ d ∈ cs.head?, d ≠ ':' := by
    refine ⟨cs.head hne, List.head?_eq_some_head hne, ?_⟩
    intro heq
    exact hnone (heq ▸ List.head_mem hne)
  rcases q with _ | ⟨d, q⟩
  · refine ⟨?_, ?_⟩
    · simpa [QualifiedName.text, qualifierOf] using hbegins hl hcolon
    · simpa [QualifiedName.text, qualifierOf] using hwritten
  · have htext : (QualifiedName.mk (qualifierOf (String.ofList (d :: q)))
        (String.ofList l)).text.toList =
        d :: q ++ ':' :: l := by
      rw [QualifiedName.toList_text_of_qualifier (q := String.ofList (d :: q))]
      · simp
      · simp [qualifierOf]
    rw [show c.rest.takeWhile isNameChar = d :: q ++ ':' :: l by simpa using hwritten]
    refine ⟨?_, .inl htext.symm⟩
    rw [htext]
    exact ⟨d, rfl, fun heq => hq (heq ▸ List.mem_cons_self ..)⟩

/-- Whether the text has `<` and a spelling of a name at an offset. -/
def Opens (text : List Char) (start : Nat) (name : QualifiedName) : Prop :=
  ∃ w, Spells w name.text ∧ '<' :: w <+: text.drop start

namespace Spells

variable {w : List Char} {name : String} {start : Nat}

/-- The first character of a spelling tells whether there is a colon in front. -/
lemma head?_eq (h : Spells w name) (hstands : w <+: text.drop start) : w.head? = text[start]? := by
  obtain ⟨rest, hrest⟩ := hstands
  rw [← List.head?_drop, ← hrest, List.head?_append_of_ne_nil _ h.ne_nil]

/-- The span of a spelling covers the name exactly if there is no colon in front. -/
lemma covers_iff (h : Spells w name) (hstands : w <+: text.drop start) :
    Covers text ⟨start, start + w.length⟩ name ↔ text[start]? ≠ some ':' := by
  have hcovers := covers_of_stands hstands (le_length_of_stands hstands h.ne_nil)
  rw [← h.head?_eq hstands, ← h.eq_iff]
  constructor
  · intro hname
    rw [hname.unique hcovers, String.toList_ofList]
  · rintro rfl
    rwa [String.ofList_toList] at hcovers

end Spells

/-- The span of `<` and as many characters as a name has covers `<` and the name exactly if the name
is written without a colon in front. -/
lemma Opens.covers_iff {start : Nat} {name : QualifiedName} (h : Opens text start name) :
    Covers text ⟨start, start + 1 + name.text.length⟩ ("<" ++ name.text) ↔
      text[start + 1]? ≠ some ':' := by
  obtain ⟨w, hw, hstands⟩ := h
  have hcut : '<' :: w.take name.text.toList.length <+: text.drop start :=
    (List.cons_prefix_cons.mpr ⟨rfl, List.take_prefix _ w⟩).trans hstands
  have hcovers := covers_of_stands hcut (le_length_of_stands hcut (List.cons_ne_nil _ _))
  have hlength : ('<' :: w.take name.text.toList.length).length = 1 + name.text.length := by
    rw [List.length_cons, List.length_take, Nat.min_eq_left hw.length_le, String.length_toList,
      Nat.add_comm]
  rw [hlength, ← Nat.add_assoc] at hcovers
  have hbehind : w <+: text.drop (start + 1) := by
    have htail := hstands.drop 1
    rwa [List.drop_drop] at htail
  rw [← hw.head?_eq hbehind, ← hw.take_eq_iff]
  have hname : "<" ++ name.text = String.ofList ('<' :: name.text.toList) := by
    rw [← String.toList_inj]
    simp
  rw [hname]
  constructor
  · intro hsame
    have hchars := String.ofList_inj.mp (hsame.unique hcovers)
    exact (List.cons.inj hchars).2.symm
  · intro htake
    rwa [htake] at hcovers

/-! ## Tokens -/

/-- Whether the text has at the spans of an attribute what they are spans of. -/
structure Attribute.Spelled (text : List Char) (a : Attribute) : Prop where
  name : ∃ w, Spells w a.name ∧ w <+: text.drop a.nameSpan.start ∧
    a.nameSpan.stop = a.nameSpan.start + w.length
  value : Covers text a.valueSpan a.value
  quotes : InQuotes text a.valueSpan a.value

/-- Whether the text has at a token what the token says. -/
def Token.Spelled (text : List Char) : Token → Prop
  | .tagOpen name span => Opens text span.start name
  | .attribute name value nameSpan valueSpan _ =>
    Attribute.Spelled text ⟨name.text, value, nameSpan, valueSpan⟩
  | .text content span => Covers text span content
  | _ => True

/-- The tokens that may come before the document element, but for the opening of a tag, say nothing
that is spelled. -/
lemma Token.spelled_of_head {t : Token} {phase : Phase} (h : t.next? .head = some phase)
    (hphase : phase ≠ .tag) : t.Spelled text := by
  cases t with
  | tagOpen name span =>
      cases h
      exact absurd rfl hphase
  | «attribute» name value nameSpan valueSpan span => cases h
  | text content span => cases h
  | _ => trivial

/-- No token leads back in front of the document element. -/
lemma Token.ne_head_of_next? {t : Token} {phase phase' : Phase} (h : t.next? phase = some phase')
    (hphase : phase ≠ .head) : phase' ≠ .head := by
  cases phase with
  | head => exact absurd rfl hphase
  | tag => cases t <;> cases h <;> decide
  | body => cases t <;> cases h <;> decide

namespace Scan

variable {c c' : Cursor} {t : Option Token}

lemma quote_ok {mark : Char} (h : quote c = .ok (mark, c')) :
    (mark = '"' ∨ mark = '\'') ∧ c.rest.head? = some mark ∧ c' = c.advance 1 := by
  obtain ⟨found, _, hpeek, h⟩ := bind_ok h
  cases hpeek
  cases hrest : c.rest.head? with
  | none =>
      rw [hrest] at h
      cases h
  | some d =>
      rw [hrest] at h
      dsimp only at h
      split_ifs at h with hmark
      · obtain ⟨_, _, ⟨⟩, h⟩ := bind_ok h
        cases h
        rw [Bool.or_eq_true, beq_iff_eq, beq_iff_eq] at hmark
        exact ⟨hmark.symm, rfl, rfl⟩
      · obtain ⟨_, _, ⟨⟩, h⟩ := bind_ok h
        cases h

/-- Content is what comes next, up to a place that ends it. -/
lemma contentUntil_ok {last : List Char → Bool} (o : Nat) {cs read : List Char}
    (h : contentUntil last o cs = .ok read) {p : Char → Prop}
    (hp : ∀ x xs, last (x :: xs) = false → p x) : read <+: cs ∧ ∀ x ∈ read, p x := by
  induction cs generalizing o read with
  | nil =>
      cases h
      exact ⟨List.prefix_rfl, by rintro x ⟨⟩⟩
  | cons x cs ih =>
      rw [contentUntil] at h
      split_ifs at h with _ hlast
      · cases h
        exact ⟨List.nil_prefix, by rintro x ⟨⟩⟩
      · cases hmore : contentUntil last (o + 1) cs with
        | error cause =>
            rw [hmore] at h
            cases h
        | ok more =>
            rw [hmore] at h
            cases h
            obtain ⟨hstands, hall⟩ := ih (o + 1) hmore
            refine ⟨List.cons_prefix_cons.mpr ⟨rfl, hstands⟩, ?_⟩
            exact List.forall_mem_cons.mpr ⟨hp x cs (Bool.not_eq_true _ ▸ hlast), hall⟩

lemma content_ok {last : List Char → Bool} {cs : List Char} (h : content last c = .ok (cs, c'))
    {p : Char → Prop} (hp : ∀ x xs, last (x :: xs) = false → p x) :
    cs <+: c.rest ∧ (∀ x ∈ cs, p x) ∧ c' = c.advance cs.length := by
  obtain ⟨_, _, ⟨⟩, h⟩ := bind_ok h
  obtain ⟨read, c₁, hread, h⟩ := bind_ok h
  cases hcontent : contentUntil last c.offset c.rest with
  | error cause =>
      rw [hcontent] at hread
      cases hread
  | ok cs =>
      rw [hcontent] at hread
      cases hread
      cases h
      obtain ⟨hstands, hall⟩ := contentUntil_ok c.offset hcontent hp
      exact ⟨hstands, hall, rfl⟩

/-- What is spelled out at a token, if there is one. -/
abbrev Says (text : List Char) (t : Option Token) : Prop :=
  ∀ x ∈ t, x.Spelled text

lemma says_some {t : Token} (h : t.Spelled text) : Says text (some t) := by
  rintro x ⟨⟩
  exact h

lemma cdata_says : cdata.Yields (Says text) :=
  .andThen offset_advances fun start => .andThen (skip_advances _) fun _ =>
    .andThen (content_advances _) fun _ => .andThen (literal_advances _) fun _ =>
    .andThen (spanFrom_advances start) fun _ => .pure (says_some trivial)

lemma endTag_says : endTag.Yields (Says text) :=
  .andThen offset_advances fun start => .andThen (skip_advances _) fun _ =>
    .andThen qualifiedName_advances fun _ => .andThen spaces_advances fun _ =>
    .andThen (char_advances _) fun _ => .andThen (spanFrom_advances start) fun _ =>
    .pure (says_some trivial)

/-- The opening of a tag begins with a `<`, and a spelling of its name follows. -/
lemma tagOpen_says (hc : c.ReadsFrom text) (hopens : c.startsWith "<" = true)
    (h : tagOpen c = .ok (t, c')) : Says text t := by
  obtain ⟨start, _, ⟨⟩, h⟩ := bind_ok h
  obtain ⟨_, _, ⟨⟩, h⟩ := bind_ok h
  obtain ⟨name, c₁, hname, h⟩ := bind_ok h
  obtain ⟨_, _, ⟨⟩, h⟩ := bind_ok h
  cases h
  obtain ⟨w, hw, hstands, -⟩ := exists_spelling hname
  refine says_some ⟨w, hw, ?_⟩
  obtain ⟨more, hmore⟩ : "<".toList <+: c.rest := List.isPrefixOf_iff_prefix.mp hopens
  have hrest : c.rest = '<' :: more := hmore.symm
  show '<' :: w <+: text.drop c.offset
  have hbehind : w <+: c.rest.drop 1 := hstands
  rw [hrest] at hbehind
  rw [← hc, hrest]
  exact List.cons_prefix_cons.mpr ⟨rfl, hbehind⟩

/-- Text is what comes next. -/
lemma text_says (hc : c.ReadsFrom text) (hinside : c.offset ≤ text.length)
    (h : Scan.text c = .ok (t, c')) : Says text t := by
  obtain ⟨start, _, ⟨⟩, h⟩ := bind_ok h
  obtain ⟨cs, c₁, hcontent, h⟩ := bind_ok h
  obtain ⟨hstands, -, rfl⟩ := content_ok (p := fun _ => True) hcontent fun _ _ _ => trivial
  rw [hc] at hstands
  have hspelled : (Token.text (String.ofList cs) ⟨c.offset, c.offset + cs.length⟩).Spelled text :=
    covers_of_stands hstands hinside
  split_ifs at h
  · obtain ⟨_, _, ⟨⟩, h⟩ := bind_ok h
  · obtain ⟨_, _, ⟨⟩, h⟩ := bind_ok h
    cases h
    exact says_some hspelled

/-- An attribute is a spelling of its name, and its value between two quotation marks. -/
lemma tagAttribute_says (hc : c.ReadsFrom text) (h : tagAttribute c = .ok (t, c')) :
    Says text t := by
  obtain ⟨key, c₁, c₂, mark, c₃, cs, c₄, hkey, hequals, hquote, hvalue, hend, rfl⟩ :=
    tagAttribute_ok h
  obtain ⟨w, hw, hwritten, rfl⟩ := exists_spelling hkey
  obtain ⟨⟨n, rfl⟩, -⟩ := equals_advances _ _ _ hequals
  obtain ⟨hmark, hopen, rfl⟩ := quote_ok hquote
  obtain ⟨hstands, hplain, rfl⟩ := content_ok (p := (· ≠ mark)) hvalue fun x xs hx => by
    simp only [List.head?_cons, Bool.or_eq_false_iff, beq_eq_false_iff_ne, ne_eq,
      Option.some.injEq] at hx
    exact hx.1
  obtain ⟨hclose, -⟩ := char_ok hend
  have hread := (hc.advance w.length).advance n
  have hread' := hread.advance 1
  rw [hc] at hwritten
  rw [hread'] at hstands
  have hbefore := hread.getElem?_of_head? hopen
  have hbehind := (hread'.advance cs.length).getElem?_of_head? hclose
  have hlt := (List.getElem?_eq_some_iff.mp hbefore).1
  exact says_some ⟨⟨w, hw, hwritten, rfl⟩, covers_of_stands hstands hlt, mark, hmark,
    by simpa using fun hmem => hplain mark hmem rfl, Nat.succ_pos _, hbefore, hbehind⟩

end Scan

/-- The end of a start tag is nothing that is spelled. -/
lemma Scan.tagPart_says {c c' : Cursor} {t : Option Token} (hc : c.ReadsFrom text)
    (h : tagPart c = .ok (t, c')) : Says text t := by
  cases tagPart_ok h with
  | selfClose _ _ htoken => exact htoken ▸ says_some trivial
  | close _ _ htoken => exact htoken ▸ says_some trivial
  | «attribute» _ _ _ hread => exact tagAttribute_says (hc.advance _) hread

/-- **All tokens of a text are spelled in it.** -/
theorem spelled_of_mem_scanAll (text : List Char) : ∀ t ∈ (scanAll text).1, t.Spelled text := by
  intro t ht
  obtain ⟨c, c', hc, hrest, hread⟩ := read_of_mem_scanAll text t ht
  have hinside : c.offset ≤ text.length := by
    have hle := hc.add_length_le hrest
    omega
  have hhead {scan : Scan (Option Token)} {phase : Phase} (hphase : phase ≠ .tag)
      (hscan : scan.Covers text (Scan.Leads .head phase)) (h : scan c = .ok (some t, c')) :
      t.Spelled text := by
    obtain ⟨-, -, -, hleads, -⟩ := hscan c (some t) c' hc hinside h
    exact Token.spelled_of_head hleads.2 hphase
  have hno : Phase.head ≠ .tag := by decide
  cases hread with
  | skipped h => cases h
  | comment h => exact hhead hno (Scan.comment_covers hno) h
  | instruction h => exact hhead hno (Scan.instruction_covers hno) h
  | doctype h => exact hhead hno Scan.doctype_covers h
  | subsetEnd h => exact hhead hno Scan.subsetEnd_covers h
  | tagOpen hopens h => exact Scan.tagOpen_says hc hopens h t rfl
  | cdata h => exact (Scan.cdata_says c _ c' h).2 t rfl
  | text _ h => exact Scan.text_says hc hinside h t rfl
  | tagPart h => exact Scan.tagPart_says hc h t rfl
  | endTag _ h => exact (Scan.endTag_says c _ c' h).2 t rfl

end XmlAdvisor
