import XmlAdvisor.Proofs.SpanTexts
import Mathlib.Data.List.Pairwise

/-!
# Where the values of attributes stand

No two attributes of an element have values that touch each other, in the order of the text or not:
the quotation marks of both are between them.  So an offset touches at most one value, and looking
for the first attribute whose value it touches is looking for the only one.

* `Attribute.Apart` — whether two values do not touch each other.
* `Token.Quoted` — whether the quotation marks of an attribute are inside its token.
* `Builder.ValuesApart` — the invariant, along the tokens of a start tag.
* **`Tree.values_apart`** — the values of each element of every tree are apart.
-/

namespace XmlAdvisor

/-! ## Tokens -/

/-- Whether the value of an attribute and a mark at both its ends are inside the token. -/
def Token.Quoted : Token → Prop
  | .attribute _ _ _ valueSpan span =>
    span.start < valueSpan.start ∧ valueSpan.start ≤ valueSpan.stop ∧ valueSpan.stop < span.stop
  | _ => True

namespace Scan

variable {c c' : Cursor} {t : Option Token}

/-- A value stands between two marks, which are behind the name. -/
lemma tagAttribute_quoted (h : tagAttribute c = .ok (t, c')) : ∀ x ∈ t, x.Quoted := by
  obtain ⟨key, c₁, c₂, mark, c₃, cs, c₄, hkey, hequals, hquote, hvalue, hend, rfl⟩ :=
    tagAttribute_ok h
  have hname := qualifiedName_advances.offset_le hkey
  have hbetween := equals_advances.offset_le hequals
  have hmark := quote_moves c₂ mark c₃ hquote
  have hread := (content_advances _).offset_le hvalue
  obtain ⟨-, rfl⟩ := char_ok hend
  rintro _ ⟨⟩
  have hopen : c.offset < c₃.offset := by omega
  exact ⟨hopen, hread, Nat.lt_succ_self _⟩

lemma tagPart_quoted (h : tagPart c = .ok (t, c')) : ∀ x ∈ t, x.Quoted := by
  cases tagPart_ok h with
  | selfClose _ _ htoken =>
      subst htoken
      rintro x ⟨⟩
      trivial
  | close _ _ htoken =>
      subst htoken
      rintro x ⟨⟩
      trivial
  | «attribute» _ _ _ hread => exact tagAttribute_quoted hread

end Scan

/-- Outside start tags no attribute is read. -/
lemma Token.quoted_of_next? {t : Token} {phase phase' : Phase} (h : t.next? phase = some phase')
    (hphase : phase ≠ .tag) : t.Quoted := by
  cases t with
  | «attribute» name value nameSpan valueSpan span =>
      cases phase with
      | tag => exact absurd rfl hphase
      | head => cases h
      | body => cases h
  | _ => trivial

/-- The marks of all attributes of a text are inside their tokens. -/
lemma quoted_of_mem_scanAll (text : List Char) : ∀ t ∈ (scanAll text).1, t.Quoted := by
  intro t ht
  obtain ⟨c, c', -, -, hread⟩ := read_cases_of_mem_scanAll text t ht
  rcases hread with ⟨phase, phase', hphase, -, hnext⟩ | ⟨-, hnext⟩ | hpart
  · exact Token.quoted_of_next? hnext hphase
  · exact Token.quoted_of_next? hnext (by decide)
  · exact Scan.tagPart_quoted hpart t rfl

/-! ## Attributes of one element -/

/-- Whether the values of two attributes do not touch each other. -/
def Attribute.Apart (a b : Attribute) : Prop :=
  a.valueSpan.stop < b.valueSpan.start ∨ b.valueSpan.stop < a.valueSpan.start

instance : Std.Symm Attribute.Apart :=
  ⟨fun _ _ => Or.symm⟩

/-- An attribute that is behind all others may take the place of one of them. -/
lemma pairwise_apart_putAttribute {a : Attribute} {attributes : List Attribute}
    (h : attributes.Pairwise Attribute.Apart)
    (hbehind : ∀ b ∈ attributes, b.valueSpan.stop < a.valueSpan.start) :
    (putAttribute a attributes).Pairwise Attribute.Apart := by
  induction attributes with
  | nil => exact List.pairwise_singleton _ _
  | cons c rest ih =>
      obtain ⟨hc, hrest⟩ := List.pairwise_cons.mp h
      obtain ⟨hfirst, hbehind⟩ := List.forall_mem_cons.mp hbehind
      rw [putAttribute]
      split_ifs
      · exact List.pairwise_cons.mpr ⟨fun b hb => .inr (hbehind b hb), hrest⟩
      · refine List.pairwise_cons.mpr ⟨fun b hb => ?_, ih hrest hbehind⟩
        rcases mem_putAttribute hb with rfl | hb
        · exact .inl hfirst
        · exact hc b hb

/-- Whether the values of an element stand before an offset, apart from each other. -/
structure Signature.ValuesApart (now : Nat) (v : Signature) : Prop where
  ordered : ∀ a ∈ v.attributes, a.valueSpan.start ≤ a.valueSpan.stop
  before : ∀ a ∈ v.attributes, a.valueSpan.stop < now
  apart : v.attributes.Pairwise Attribute.Apart

lemma Signature.ValuesApart.mono {v : Signature} {now now' : Nat} (h : v.ValuesApart now)
    (hle : now ≤ now') : v.ValuesApart now' :=
  { h with before := fun a ha => Nat.lt_of_lt_of_le (h.before a ha) hle }

namespace Builder

variable {text : List Char} {b : Builder} {phase phase' : Phase} {now : Nat} {t : Token}

/-- Whether the values of each element stand before an offset, apart from each other. -/
def ValuesApart (now : Nat) (b : Builder) : Prop :=
  ∀ i v, b.viewed Signature.of i = some v → v.ValuesApart now

/-- An attribute whose value begins where the text has been read to is apart from those before
it. -/
lemma ValuesApart.addAttribute (h : b.ValuesApart now) {name : QualifiedName} {value : String}
    {nameSpan valueSpan span : Span} (hle : now ≤ span.start)
    (hquoted : (Token.attribute name value nameSpan valueSpan span).Quoted) :
    (b.addAttribute name value nameSpan valueSpan span).ValuesApart span.stop := by
  obtain ⟨hstart, hordered, hstop⟩ := hquoted
  have hkept {i : Nat} {v : Signature} (hv : b.viewed Signature.of i = some v) :
      v.ValuesApart span.stop := (h i v hv).mono (by omega)
  cases hp : b.pending with
  | none =>
      rw [Builder.addAttribute, hp]
      exact fun i v => hkept
  | some p =>
      intro i v hv
      rw [viewed_addAttribute hp (g := fun v => { v with
        attributes := putAttribute ⟨name.text, value, nameSpan, valueSpan⟩ v.attributes })
        name value nameSpan valueSpan span fun _ _ _ => rfl] at hv
      split_ifs at hv
      · obtain ⟨u, hu, rfl⟩ := Option.map_eq_some_iff.mp hv
        have hold := hkept hu
        constructor
        case ordered =>
          intro a ha
          rcases mem_putAttribute ha with rfl | ha
          · exact hordered
          · exact hold.ordered a ha
        case before =>
          intro a ha
          rcases mem_putAttribute ha with rfl | ha
          · exact hstop
          · exact hold.before a ha
        case apart =>
          refine pairwise_apart_putAttribute hold.apart fun a ha => ?_
          have hbefore := (h i u hu).before a ha
          show a.valueSpan.stop < valueSpan.start
          omega
      · exact hkept hv

lemma ValuesApart.step (h : b.ValuesApart now) (hs : b.Steady phase now)
    (hnext : t.next? phase = some phase') (hle : now ≤ t.span.start)
    (hordered : t.span.start ≤ t.span.stop) (hquoted : t.Quoted) :
    (b.step text t).ValuesApart t.span.stop := by
  have hcases := viewed_step_cases text (ψ := Signature.of) (fun _ _ _ _ => rfl)
    (fun _ _ _ _ _ => rfl) ⟨fun _ _ _ _ => rfl, fun _ _ _ _ => rfl⟩ hs hnext
  have hkept {i : Nat} {v : Signature} (hv : b.viewed Signature.of i = some v) :
      v.ValuesApart t.span.stop := (h i v hv).mono (Nat.le_trans hle hordered)
  rcases hcases with hsame | ⟨name, span, rfl, hopen⟩ | ⟨name, value, nameSpan,
    valueSpan, span, rfl⟩
  · intro i v hv
    rw [hsame] at hv
    exact hkept hv
  · intro i v hv
    rw [hopen] at hv
    split_ifs at hv
    · cases hv
      exact ⟨by rintro a ⟨⟩, by rintro a ⟨⟩, .nil⟩
    · exact hkept hv
  · exact h.addAttribute hle hquoted

lemma ValuesApart.foldl_step {tokens : List Token} (h : b.ValuesApart now) (hs : b.Steady phase now)
    (hfollow : Follow text.length phase now tokens) (hquoted : ∀ t ∈ tokens, t.Quoted) :
    ((tokens.foldl (Builder.step text) b).finish text.length).ValuesApart text.length := by
  induction hfollow generalizing b with
  | nil inside =>
      intro i v hv
      rw [viewed_finish (fun _ _ _ _ => rfl)] at hv
      exact (h i v hv).mono inside
  | cons next behind ordered read more ih =>
      exact ih (h.step hs next behind ordered (hquoted _ (List.mem_cons_self ..)))
        (hs.step next behind ordered read) fun t ht => hquoted t (List.mem_cons_of_mem _ ht)

end Builder

namespace Tree

/-- **The values of an element's attributes** end behind where they begin, and do not touch each
other. -/
theorem values_apart {text : List Char} {e : ElementNode} (he : e ∈ (Tree.parse text).elements) :
    (∀ a ∈ e.element.attributes, a.valueSpan.start ≤ a.valueSpan.stop) ∧
      e.element.attributes.Pairwise Attribute.Apart := by
  have hempty : Builder.empty.ValuesApart 0 := by
    intro i v hv
    simp [Builder.viewed, Builder.empty] at hv
  have hview := viewed_of_element? (ψ := Signature.of) (mem_elements.mp he)
  obtain ⟨hordered, -, hapart⟩ := hempty.foldl_step Builder.steady_empty (follow_scanAll text)
    (quoted_of_mem_scanAll text) _ _ hview
  exact ⟨hordered, hapart⟩

/-- An offset touches at most one value of an element. -/
lemma eq_of_touched {text : List Char} {e : ElementNode} (he : e ∈ (Tree.parse text).elements)
    {offset : Nat} {a b : Attribute} (ha : a ∈ e.element.attributes)
    (hb : b ∈ e.element.attributes)
    (hta : a.valueSpan.start ≤ offset ∧ offset ≤ a.valueSpan.stop)
    (htb : b.valueSpan.start ≤ offset ∧ offset ≤ b.valueSpan.stop) : a = b := by
  by_contra hne
  have hapart := (values_apart he).2.forall ha hb hne
  rcases hapart with h | h <;> omega

end Tree

end XmlAdvisor
