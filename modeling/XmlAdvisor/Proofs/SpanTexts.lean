import XmlAdvisor.Proofs.StartTags
import XmlAdvisor.Proofs.TokenSpellings
import XmlAdvisor.Proofs.TreeOrder

/-!
# What the spans of a tree cover

An element tells the span of its name, an attribute those of its name and its value, and a text node
its own.  Sliced out of the text, they give back what they are spans of, but for names that are
written with a colon in front: the colon is in their spans and not in the names.

**Elements** keep what the tokens of their start tags say, and only these tokens change it
(`Builder.TagsSpelled`).  **Texts** stay as they are once they are there (`Builder.TextsSpelled`).

* `Builder.Spelled` — whether the start tags and the texts of a builder are written in the text.
* **`Tree.covers_of_parse`** — what the spans of a tree cover.
-/

namespace XmlAdvisor

variable {text : List Char}

/-! ## Elements -/

/-- Whether the text has `<` and the name where an element begins, and all of its attributes. -/
structure Signature.Spelled (text : List Char) (v : Signature) : Prop where
  opens : Opens text v.start v.name
  attributes : ∀ a ∈ v.attributes, a.Spelled text

lemma mem_putAttribute {a b : Attribute} {attributes : List Attribute}
    (h : b ∈ putAttribute a attributes) : b = a ∨ b ∈ attributes := by
  induction attributes with
  | nil => exact .inl (List.mem_singleton.mp h)
  | cons c rest ih =>
      rw [putAttribute] at h
      split_ifs at h
      · exact (List.mem_cons.mp h).imp_right (List.mem_cons_of_mem c)
      · rcases List.mem_cons.mp h with rfl | h
        · exact .inr (List.mem_cons_self ..)
        · exact (ih h).imp_right (List.mem_cons_of_mem c)

namespace Builder

variable {b b' : Builder} {phase phase' : Phase} {now : Nat} {t : Token}

/-- Whether the start tags of all elements are written in the text. -/
def TagsSpelled (text : List Char) (b : Builder) : Prop :=
  ∀ i v, b.viewed Signature.of i = some v → v.Spelled text

lemma TagsSpelled.of_viewed (h : b.TagsSpelled text)
    (hsame : b'.viewed Signature.of = b.viewed Signature.of) : b'.TagsSpelled text := by
  intro i v hv
  rw [hsame] at hv
  exact h i v hv

/-- An attribute that is spelled is put among those that are. -/
lemma TagsSpelled.addAttribute (h : b.TagsSpelled text) {name : QualifiedName} {value : String}
    {nameSpan valueSpan : Span} (span : Span)
    (hspelled : Attribute.Spelled text ⟨name.text, value, nameSpan, valueSpan⟩) :
    (b.addAttribute name value nameSpan valueSpan span).TagsSpelled text := by
  cases hp : b.pending with
  | none =>
      rw [Builder.addAttribute, hp]
      exact h
  | some p =>
      intro i v hv
      rw [viewed_addAttribute hp (g := fun v => { v with
        attributes := putAttribute ⟨name.text, value, nameSpan, valueSpan⟩ v.attributes })
        name value nameSpan valueSpan span fun _ _ _ => rfl] at hv
      split_ifs at hv
      · obtain ⟨u, hu, rfl⟩ := Option.map_eq_some_iff.mp hv
        refine ⟨(h i u hu).opens, fun a ha => ?_⟩
        rcases mem_putAttribute ha with rfl | ha
        · exact hspelled
        · exact (h i u hu).attributes a ha
      · exact h i v hv

/-- A token that is spelled keeps the start tags spelled. -/
lemma TagsSpelled.step (h : b.TagsSpelled text) (hs : b.Steady phase now)
    (hnext : t.next? phase = some phase') (hspelled : t.Spelled text) :
    (b.step text t).TagsSpelled text := by
  have hcases := viewed_step_cases text (ψ := Signature.of) (fun _ _ _ _ => rfl)
    (fun _ _ _ _ _ => rfl) ⟨fun _ _ _ _ => rfl, fun _ _ _ _ => rfl⟩ hs hnext
  rcases hcases with hsame | ⟨name, span, rfl, hopen⟩ | ⟨name, value, nameSpan,
    valueSpan, span, rfl⟩
  · exact h.of_viewed hsame
  · intro i v hv
    rw [hopen] at hv
    split_ifs at hv
    · cases hv
      exact ⟨hspelled, by rintro a ⟨⟩⟩
    · exact h i v hv
  · exact h.addAttribute span hspelled

/-! ## Texts -/

/-- Whether the text nodes cover their texts.  Before the document element there are none. -/
def TextsSpelled (text : List Char) (phase : Phase) (b : Builder) : Prop :=
  ∀ (i : Nat) (n : Node) (content : String), b.nodes[i]? = some n → n.kind = .text content →
    phase ≠ .head ∧ Covers text n.span content

/-- Texts are no elements, so what alters elements leaves them as they are. -/
lemma TextsSpelled.alters (h : b.TextsSpelled text phase) {ids : List Nat} (ha : b.Alters ids b') :
    b'.TextsSpelled text phase := by
  intro i m content hm hkind
  obtain ⟨n, hn, halike, -⟩ := ha.node i m hm
  obtain rfl := halike.eq_of_none (by rw [Node.element?, hkind])
  exact h i m content hn hkind

lemma TextsSpelled.push (h : b.TextsSpelled text phase) (hlt : ∀ id ∈ b.openIds, id < b.nodes.size)
    {kind : NodeKind} {span : Span}
    (hnew : ∀ content, kind = .text content → phase ≠ .head ∧ Covers text span content) :
    (b.push kind span).TextsSpelled text phase := by
  intro i m content hm hkind
  rcases getElem?_push_cases hlt hm with ⟨-, rfl⟩ | ⟨n, hn, rfl⟩
  · exact hnew content hkind
  · have hsame := (b.alike_adopt i n).eq_of_none (by rw [Node.element?, hkind])
    rw [hsame] at hkind ⊢
    exact h i n content hn hkind

/-- The document type that ends is no text. -/
lemma TextsSpelled.endSubset (h : b.TextsSpelled text .head) (span : Span) :
    (b.endSubset text span).TextsSpelled text .head := by
  cases hid : b.doctypeNode with
  | none =>
      rw [Builder.endSubset, hid]
      exact h
  | some id =>
      intro i m content hm hkind
      obtain ⟨subset, hnodes⟩ := b.getElem?_endSubset text span hid
      rw [hnodes, Option.map_eq_some_iff] at hm
      obtain ⟨n, hn, rfl⟩ := hm
      have htext : n.kind = .text content := by
        split_ifs at hkind
        · rw [recordSubset] at hkind
          split at hkind
          · cases hkind
          · exact hkind
        · exact hkind
      exact absurd rfl (h i n content hn htext).1

lemma TextsSpelled.mono (h : b.TextsSpelled text phase) (hnext : t.next? phase = some phase') :
    b.TextsSpelled text phase' := by
  intro i n content hn hkind
  obtain ⟨hphase, hcovers⟩ := h i n content hn hkind
  exact ⟨Token.ne_head_of_next? hnext hphase, hcovers⟩

/-- A token that is spelled keeps the texts spelled. -/
lemma TextsSpelled.step (h : b.TextsSpelled text phase) (hs : b.Steady phase now)
    (hnext : t.next? phase = some phase') (hspelled : t.Spelled text) :
    (b.step text t).TextsSpelled text phase' := by
  refine TextsSpelled.mono ?_ hnext
  have hpush (hphase : phase ≠ .tag) {kind : NodeKind} {span : Span}
      (hnew : ∀ content, kind = .text content → phase ≠ .head ∧ Covers text span content) :
      (b.push kind span).TextsSpelled text phase :=
    h.push (hs.nested_open hphase).openIds_lt hnew
  cases t with
  | doctype name external subset span =>
      cases phase <;> cases hnext
      rw [Builder.step, Builder.addDoctype]
      dsimp only
      split_ifs <;> exact hpush (by decide) (by rintro content ⟨⟩)
  | subsetEnd span =>
      cases phase <;> cases hnext
      exact h.endSubset span
  | comment content span =>
      cases phase <;> cases hnext <;> exact hpush (by decide) (by rintro content ⟨⟩)
  | instruction target data span =>
      cases phase <;> cases hnext <;> exact hpush (by decide) (by rintro content ⟨⟩)
  | cdata content span =>
      cases phase <;> cases hnext
      exact hpush (by decide) (by rintro content ⟨⟩)
  | text content span =>
      cases phase <;> cases hnext
      refine hpush (by decide) ?_
      rintro _ ⟨⟩
      exact ⟨by decide, hspelled⟩
  | tagOpen name span =>
      have hphase : phase ≠ .tag := by
        rintro rfl
        cases hnext
      exact hpush hphase (by rintro content ⟨⟩)
  | «attribute» name value nameSpan valueSpan span =>
      exact h.alters (hs.alters_addAttribute name value nameSpan valueSpan span)
  | tagClose span => exact h.alters (hs.alters_closeTag span)
  | tagSelfClose span => exact h.alters (hs.alters_selfCloseTag span)
  | endTag name span => exact h.alters (hs.alters_endTag name span)

/-! ## The whole text -/

/-- Whether the start tags and the texts of a builder are written in the text. -/
structure Spelled (text : List Char) (phase : Phase) (b : Builder) : Prop where
  tags : b.TagsSpelled text
  texts : b.TextsSpelled text phase

lemma spelled_empty : empty.Spelled text .head := by
  refine ⟨fun i v hv => ?_, fun i n content hn _ => ?_⟩
  · simp [viewed, empty] at hv
  · simp [empty] at hn

/-- Tokens that follow one another and are spelled keep the builder spelled, to the end of the
text. -/
lemma Spelled.foldl_step {tokens : List Token} (h : b.Spelled text phase) (hs : b.Steady phase now)
    (hfollow : Follow text.length phase now tokens) (hspelled : ∀ t ∈ tokens, t.Spelled text) :
    ∃ phase', ((tokens.foldl (Builder.step text) b).finish text.length).Spelled text phase' := by
  induction hfollow generalizing b with
  | nil inside =>
      exact ⟨_, h.tags.of_viewed (viewed_finish (fun _ _ _ _ => rfl) b text.length),
        h.texts.alters (hs.alters_finish text.length)⟩
  | cons next behind ordered read more ih =>
      have hfirst := hspelled _ (List.mem_cons_self ..)
      exact ih ⟨h.tags.step hs next hfirst, h.texts.step hs next hfirst⟩
        (hs.step next behind ordered read) fun t ht => hspelled t (List.mem_cons_of_mem _ ht)

/-- What is built of a text is written in it. -/
lemma exists_spelled (text : List Char) : ∃ phase,
    (((scanAll text).1.foldl (Builder.step text) empty).finish text.length).Spelled text phase :=
  spelled_empty.foldl_step steady_empty (follow_scanAll text) (spelled_of_mem_scanAll text)

end Builder

namespace Tree

/-- The start tag of every element is written in the text. -/
lemma spelled_of_element? {i : Nat} {e : ElementNode} (h : (Tree.parse text).element? i = some e) :
    Opens text e.span.start e.element.name ∧ ∀ a ∈ e.element.attributes, a.Spelled text := by
  obtain ⟨_, hb⟩ := Builder.exists_spelled text
  have hview := viewed_of_element? (ψ := Signature.of) h
  obtain ⟨hopens, hattributes⟩ := hb.tags i _ hview
  exact ⟨hopens, hattributes⟩

/-- Every text node covers its text. -/
lemma covers_of_text {i : Nat} {n : Node} {content : String}
    (hn : (Tree.parse text).nodes[i]? = some n) (hkind : n.kind = .text content) :
    Covers text n.span content := by
  obtain ⟨_, hb⟩ := Builder.exists_spelled text
  exact (hb.texts i n content hn hkind).2

/-- **What spans cover.**  The span of the name in a start tag covers `<` and the name, and the span
of the name of an attribute covers the name, exactly if the name is not written with a colon in
front.  The span of a value covers the value, which stands between two quotation marks that are the
same and do not occur in it. The span of a text node covers its text. -/
theorem covers_of_parse (text : List Char) :
    (∀ e ∈ (Tree.parse text).elements,
      (Covers text e.nameSpan ("<" ++ e.element.tagName) ↔ text[e.span.start + 1]? ≠ some ':') ∧
      ∀ a ∈ e.element.attributes,
        (Covers text a.nameSpan a.name ↔ text[a.nameSpan.start]? ≠ some ':') ∧
        Covers text a.valueSpan a.value ∧ InQuotes text a.valueSpan a.value) ∧
    ∀ (i : Nat) (n : Node) (content : String), (Tree.parse text).nodes[i]? = some n →
      n.kind = .text content → Covers text n.span content := by
  refine ⟨fun e he => ?_, fun i n content hn hkind => covers_of_text hn hkind⟩
  obtain ⟨hopens, hattributes⟩ := spelled_of_element? (mem_elements.mp he)
  refine ⟨hopens.covers_iff, fun a ha => ?_⟩
  obtain ⟨⟨w, hw, hstands, hstop⟩, hvalue, hquotes⟩ := hattributes a ha
  have hspan : a.nameSpan = ⟨a.nameSpan.start, a.nameSpan.start + w.length⟩ := by rw [← hstop]
  refine ⟨?_, hvalue, hquotes⟩
  rw [hspan]
  exact hw.covers_iff hstands

/-- An element and an attribute with qualifiers. -/
theorem covers_of_parse_qualified : ∃ e ∈ (Tree.parse "<p:é x:y=''>t</p:é>".toList).elements,
    Covers "<p:é x:y=''>t</p:é>".toList e.nameSpan "<p:é" ∧
    (∃ a ∈ e.element.attributes, Covers "<p:é x:y=''>t</p:é>".toList a.nameSpan "x:y" ∧
      InQuotes "<p:é x:y=''>t</p:é>".toList a.valueSpan "") ∧
    ∃ n, (Tree.parse "<p:é x:y=''>t</p:é>".toList).nodes[1]? = some n ∧
      Covers "<p:é x:y=''>t</p:é>".toList n.span "t" := by
  obtain ⟨htags, htexts⟩ := covers_of_parse "<p:é x:y=''>t</p:é>".toList
  obtain ⟨e, he, htag, hcolon, a, ha, hname, hvalue, hcolon'⟩ :
      ∃ e ∈ (Tree.parse "<p:é x:y=''>t</p:é>".toList).elements, e.element.tagName = "p:é" ∧
        "<p:é x:y=''>t</p:é>".toList[e.span.start + 1]? ≠ some ':' ∧
        ∃ a ∈ e.element.attributes, a.name = "x:y" ∧ a.value = "" ∧
          "<p:é x:y=''>t</p:é>".toList[a.nameSpan.start]? ≠ some ':' := by decide +kernel
  obtain ⟨n, hn, hkind⟩ : ∃ n, (Tree.parse "<p:é x:y=''>t</p:é>".toList).nodes[1]? = some n ∧
      n.kind = .text "t" := ⟨⟨some 0, ⟨12, 13⟩, .text "t"⟩, by decide +kernel, rfl⟩
  obtain ⟨hcovers, hattributes⟩ := htags e he
  obtain ⟨hcoversName, -, hquotes⟩ := hattributes a ha
  rw [htag] at hcovers
  rw [hname] at hcoversName
  rw [hvalue] at hquotes
  exact ⟨e, he, hcovers.mpr hcolon, ⟨a, ha, hcoversName.mpr hcolon', hquotes⟩, n, hn,
    htexts 1 n "t" hn hkind⟩

/-- With a colon in front of its name, the span covers the colon but not all of the name. -/
theorem nameSpan_of_leading_colon : ∃ e ∈ (Tree.parse "<:a/>".toList).elements,
    e.element.tagName = "a" ∧ Covers "<:a/>".toList e.nameSpan "<:" ∧
      ¬ Covers "<:a/>".toList e.nameSpan ("<" ++ e.element.tagName) := by
  decide +kernel

end Tree

end XmlAdvisor
