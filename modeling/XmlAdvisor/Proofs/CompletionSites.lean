import XmlAdvisor.Advice.Completion
import XmlAdvisor.Proofs.EditPlaces
import XmlAdvisor.Proofs.InnermostElements
import XmlAdvisor.Proofs.ValuePlaces
import XmlAdvisor.Proofs.VisitedElements
import Mathlib.Data.Nat.SuccPred

/-!
# The site of an offset

The site is looked for from the innermost element around an offset outwards, where each element
tells by itself whether the offset is in its start tag or its content.  What this comes to does not
mention the way: start tags come first, since no element inside another one reaches into its start
tag, and of the contents that touch the offset the innermost one counts.

* `ElementNode.HasInTag`, `HasInContent`, `Attribute.HasInValue` — where an offset is at an element.
* `Tree.Climbs` — the way outwards, step by step, and what it ends with.
* `Tree.Nests.climbs_outwards` — there is such a way from every element; `Climbs.reaches` — it ends
  at the first element that tells.
* **`Tree.siteAt?_eq_some_iff`** — the element that a site is about.
-/

namespace XmlAdvisor

/-! ## Offsets at an element -/

lemma Span.touches_iff {s : Span} {offset : Nat} :
    s.touches offset = true ↔ s.start ≤ offset ∧ offset ≤ s.stop := by
  simp [touches]

/-- Whether an offset touches the value of an attribute. -/
def Attribute.HasInValue (a : Attribute) (offset : Nat) : Prop :=
  a.valueSpan.start ≤ offset ∧ offset ≤ a.valueSpan.stop

namespace ElementNode

/-- Whether an offset is inside an element behind the name in its start tag, and not behind the
place where the start tag closes, if it does. -/
structure HasInTag (e : ElementNode) (offset : Nat) : Prop where
  behind : e.nameSpan.stop < offset
  before : ∀ close ∈ e.element.startTagClose, offset ≤ close
  inside : offset ≤ e.span.stop

/-- Whether an offset is behind the start tag of an element and not behind the place where the end
tag opens. Without an end tag the content goes to the end of the element, unless the element has
none. -/
def HasInContent (e : ElementNode) (offset : Nat) : Prop :=
  ∃ close, e.element.startTagClose = some close ∧ close < offset ∧
    ((∃ stop, e.element.endTagOpen = some stop ∧ offset ≤ stop) ∨
      e.element.endTagOpen = none ∧ e.element.selfClosed = false ∧ offset ≤ e.span.stop)

variable {e : ElementNode} {offset : Nat} {s : CompletionSite}

lemma inStartTag_iff (hinside : offset ≤ e.span.stop) :
    e.inStartTag offset = true ↔ e.HasInTag offset := by
  rw [inStartTag, Bool.and_eq_true, decide_eq_true_eq, Option.all_eq_true]
  constructor
  · rintro ⟨hbehind, hbefore⟩
    exact ⟨hbehind, fun close hclose => of_decide_eq_true (hbefore close hclose), hinside⟩
  · rintro ⟨hbehind, hbefore, -⟩
    exact ⟨hbehind, fun close hclose => decide_eq_true (hbefore close hclose)⟩

lemma openContentSpan_iff :
    e.openContentSpan.any (·.touches offset) = true ↔ e.HasInContent offset := by
  rw [openContentSpan, HasInContent, Element.contentSpan]
  cases hclose : e.element.startTagClose with
  | none => simp
  | some close =>
      cases hstop : e.element.endTagOpen with
      | none => cases hself : e.element.selfClosed <;> simp [Span.touches_iff]
      | some stop => simp [Span.touches_iff]

/-- What an element tells of an offset that is inside it. -/
inductive Tells (e : ElementNode) (offset : Nat) : CompletionSite → Prop
  | startTag (tag : e.HasInTag offset) (plain : ∀ a ∈ e.element.attributes, ¬ a.HasInValue offset) :
      Tells e offset (.startTag e)
  | value {a : Attribute} (tag : e.HasInTag offset) (mem : a ∈ e.element.attributes)
      (value : a.HasInValue offset) : Tells e offset (.attributeValue e a.name)
  | content (outside : ¬ e.HasInTag offset) (content : e.HasInContent offset) :
      Tells e offset (.content e)

/-- In its start tag an element tells something. -/
lemma HasInTag.exists_tells (h : e.HasInTag offset) : ∃ s, e.Tells offset s := by
  by_cases hvalue : ∃ a ∈ e.element.attributes, a.HasInValue offset
  · obtain ⟨a, ha, hvalue⟩ := hvalue
    exact ⟨_, .value h ha hvalue⟩
  · push Not at hvalue
    exact ⟨_, .startTag h hvalue⟩

/-- Of values that are apart the first one that an offset touches is the only one. -/
lemma siteAt?_iff_tells (hinside : offset ≤ e.span.stop)
    (hone : ∀ a ∈ e.element.attributes, ∀ b ∈ e.element.attributes, a.HasInValue offset →
      b.HasInValue offset → a = b) : e.siteAt? offset = some s ↔ e.Tells offset s := by
  rw [siteAt?]
  split_ifs with htag hcontent
  · rw [inStartTag_iff hinside] at htag
    cases hfind : e.element.attributes.find? (·.valueSpan.touches offset) with
    | none =>
        have hplain : ∀ a ∈ e.element.attributes, ¬ a.HasInValue offset := by
          intro a ha hvalue
          exact List.find?_eq_none.mp hfind a ha (Span.touches_iff.mpr hvalue)
        constructor
        · rintro ⟨⟩
          exact .startTag htag hplain
        · rintro (_ | ⟨-, ha, hvalue⟩ | ⟨hout, -⟩)
          · rfl
          · exact absurd hvalue (hplain _ ha)
          · exact absurd htag hout
    | some a =>
        have ha := List.mem_of_find?_eq_some hfind
        have htouches := List.find?_some
          (p := fun a : Attribute => a.valueSpan.touches offset) hfind
        have hvalue : a.HasInValue offset := Span.touches_iff.mp htouches
        constructor
        · rintro ⟨⟩
          exact .value htag ha hvalue
        · rintro (⟨-, hplain⟩ | ⟨-, hb, hvalue'⟩ | ⟨hout, -⟩)
          · exact absurd hvalue (hplain a ha)
          · rw [hone a ha _ hb hvalue hvalue']
          · exact absurd htag hout
  · rw [inStartTag_iff hinside] at htag
    rw [openContentSpan_iff] at hcontent
    constructor
    · rintro ⟨⟩
      exact .content htag hcontent
    · rintro (⟨hin, -⟩ | ⟨hin, -, -⟩ | _)
      · exact absurd hin htag
      · exact absurd hin htag
      · rfl
  · rw [inStartTag_iff hinside] at htag
    rw [openContentSpan_iff] at hcontent
    constructor
    · rintro ⟨⟩
    · rintro (⟨hin, -⟩ | ⟨hin, -, -⟩ | ⟨-, hin⟩)
      · exact absurd hin htag
      · exact absurd hin htag
      · exact absurd hin hcontent

end ElementNode

/-! ## The way outwards -/

namespace Tree

/-- What the way outwards from an element ends with: the site that the first element tells, or
nothing if none does. -/
inductive Climbs (t : Tree) (offset : Nat) : ElementNode → Option CompletionSite → Prop
  | here {e : ElementNode} {s : CompletionSite} (told : e.siteAt? offset = some s) :
      Climbs t offset e (some s)
  | further {e p : ElementNode} {s : Option CompletionSite} (silent : e.siteAt? offset = none)
      (parent : t.parentElement? e = some p) (outer : Climbs t offset p s) : Climbs t offset e s
  | top {e : ElementNode} (silent : e.siteAt? offset = none) (parent : t.parentElement? e = none) :
      Climbs t offset e none

variable {t : Tree} {a e p x : ElementNode} {offset : Nat} {s : CompletionSite}

/-- What is around an element is its parent or around that. -/
lemma isAncestor_iff (t : Tree) (a e : ElementNode) :
    t.IsAncestor a e ↔ ∃ p, t.parentElement? e = some p ∧ (a = p ∨ t.IsAncestor a p) := by
  rw [IsAncestor, Relation.TransGen.head'_iff]
  simp only [Relation.reflTransGen_iff_eq_or_transGen, IsAncestor]

namespace Climbs

/-- What is told in the end comes from an element on the way, and those before it tell nothing. -/
lemma exists_told {r : Option CompletionSite} (h : t.Climbs offset e r) (hr : r = some s) :
    ∃ x, (x = e ∨ t.IsAncestor x e) ∧ x.siteAt? offset = some s ∧
      ∀ y, (y = e ∨ t.IsAncestor y e) → (y = x ∨ t.IsAncestor y x) ∨ y.siteAt? offset = none := by
  induction h with
  | @here e s' told =>
      obtain rfl := Option.some.inj hr
      exact ⟨e, .inl rfl, told, fun y hy => .inl hy⟩
  | @further e p r silent parent outer ih =>
      obtain ⟨x, hx, htold, hbefore⟩ := ih hr
      refine ⟨x, .inr ((t.isAncestor_iff x e).mpr ⟨p, parent, hx⟩), htold, fun y hy => ?_⟩
      rcases hy with rfl | hy
      · exact .inr silent
      · obtain ⟨p', hp', hy⟩ := (t.isAncestor_iff y e).mp hy
        rw [parent, Option.some.injEq] at hp'
        subst hp'
        exact hbefore y hy
  | top => cases hr

/-- The way ends at an element on it that tells if none of those inside does. -/
lemma reaches {r : Option CompletionSite} (h : t.Climbs offset e r) (hx : x = e ∨ t.IsAncestor x e)
    (htold : x.siteAt? offset = some s)
    (hsilent : ∀ y, (y = e ∨ t.IsAncestor y e) → t.IsAncestor x y → y.siteAt? offset = none) :
    r = some s := by
  induction h with
  | @here e s' told =>
      rcases hx with rfl | hx
      · rw [← told, htold]
      · rw [hsilent e (.inl rfl) hx] at told
        cases told
  | @further e p r silent parent outer ih =>
      rcases hx with rfl | hx
      · rw [silent] at htold
        cases htold
      · obtain ⟨p', hp', hx⟩ := (t.isAncestor_iff x e).mp hx
        rw [parent, Option.some.injEq] at hp'
        subst hp'
        refine ih hx fun y hy => hsilent y (.inr ((t.isAncestor_iff y e).mpr ⟨p, parent, hy⟩))
  | @top e silent parent =>
      rcases hx with rfl | hx
      · rw [silent] at htold
        cases htold
      · obtain ⟨p, hp, -⟩ := (t.isAncestor_iff x e).mp hx
        rw [parent] at hp
        cases hp

end Climbs

/-! ## Elements with the offset -/

namespace Nests

variable (ht : t.Nests)
include ht

/-- The parent of an element is around it. -/
lemma parent_around (he : t.element? e.id = some e) (hp : t.parentElement? e = some p) :
    t.element? p.id = some p ∧ p.id < e.id ∧ e ∈ t.childElements p ∧
      p.span.start < e.span.start ∧ e.span.stop ≤ p.span.stop := by
  obtain ⟨i, hi, hip⟩ := Option.bind_eq_some_iff.mp hp
  obtain ⟨p', hp', hchild⟩ := ht.exists_parentElement he hi
  obtain ⟨n, hn, hnparent, -⟩ := ht.parent_of_mem_childElements hp' hchild
  obtain ⟨n', hn', -, hparent, -⟩ := (element?_eq_some he).2
  rw [hn, Option.some.injEq] at hn'
  rw [hn', hparent, hi, Option.some.injEq] at hnparent
  rw [hnparent, hp', Option.some.injEq] at hip
  subst hip
  exact ⟨hp', (ht.inside e.id n _ hn (hn' ▸ hparent.trans (hnparent ▸ hi))).1, hchild,
    ht.span_child hp' hchild⟩

lemma exists_parent (he : t.element? e.id = some e) {i : Nat} (hi : e.parent = some i) :
    ∃ p, t.parentElement? e = some p ∧ p.id = i := by
  obtain ⟨p, hp, hchild⟩ := ht.exists_parentElement he hi
  obtain ⟨n, hn, hnparent, -⟩ := ht.parent_of_mem_childElements hp hchild
  obtain ⟨n', hn', -, hparent, -⟩ := (element?_eq_some he).2
  rw [hn, Option.some.injEq] at hn'
  rw [hn', hparent, hi, Option.some.injEq] at hnparent
  exact ⟨p, by rw [parentElement?, hi, hnparent]; exact hp, hnparent.symm⟩

/-- From every element there is a way outwards, which ends at the document element at the latest. -/
theorem climbs_outwards (he : t.element? e.id = some e) (offset : Nat) :
    t.Climbs offset e ((t.elementsOutwards e.id).findSome? (·.siteAt? offset)) := by
  -- outwards the numbers become smaller
  induction hid : e.id using Nat.strongRecOn generalizing e with
  | ind i ih =>
      subst hid
      rw [ht.elementsOutwards_cons he]
      cases hs : e.siteAt? offset with
      | some s =>
          rw [List.findSome?_cons_of_isSome (by rw [hs]; rfl), hs]
          exact .here hs
      | none =>
          rw [List.findSome?_cons_of_isNone (by rw [hs]; rfl)]
          cases hi : e.parent with
          | none => exact .top hs (by rw [parentElement?, hi]; rfl)
          | some i =>
              obtain ⟨p, hp, rfl⟩ := ht.exists_parent he hi
              obtain ⟨hpe, hlt, -⟩ := ht.parent_around he hp
              rw [Option.toList_some, List.flatMap_singleton]
              exact .further hs hp (ih p.id hlt hpe rfl)

/-- Around an element with the offset are elements with the offset. -/
lemma holds_outwards (h : t.IsAncestor a e) (he : t.element? e.id = some e)
    (hholds : e.Holds offset) :
    t.element? a.id = some a ∧ a.Holds offset := by
  induction h with
  | single hp =>
      obtain ⟨hpe, -, -, hstart, hstop⟩ := ht.parent_around he hp
      exact ⟨hpe, Nat.lt_trans hstart hholds.1, Nat.le_trans hholds.2 hstop⟩
  | tail _ hp ih =>
      obtain ⟨hc, hcholds⟩ := ih
      obtain ⟨hpe, -, -, hstart, hstop⟩ := ht.parent_around hc hp
      exact ⟨hpe, Nat.lt_trans hstart hcholds.1, Nat.le_trans hcholds.2 hstop⟩

/-- Some element is outermost if there are elements at all. -/
lemma exists_root (he : t.element? e.id = some e) : ∃ root, t.root? = some root := by
  induction hid : e.id using Nat.strongRecOn generalizing e with
  | ind i ih =>
      subst hid
      cases hi : e.parent with
      | none =>
          obtain ⟨n, hn, -, hparent, -⟩ := (element?_eq_some he).2
          have htop := ht.outside e.id n hn (hparent.trans hi)
          exact Option.isSome_iff_exists.mp
            (List.findSome?_isSome_iff.mpr ⟨e.id, htop, by rw [he]; rfl⟩)
      | some i =>
          obtain ⟨p, hp, rfl⟩ := ht.exists_parent he hi
          obtain ⟨hpe, hlt, -⟩ := ht.parent_around he hp
          exact ih p.id hlt hpe rfl

end Nests

/-! ## Elements of the tree of a text -/

section Parsed

variable {text : List Char}

lemma holds_of_hasInTag (h : e.HasInTag offset) : e.Holds offset := by
  have hname : e.nameSpan.stop = e.span.start + 1 + e.element.tagName.length := rfl
  have hbehind := h.behind
  exact ⟨by omega, h.inside⟩

lemma holds_of_hasInContent (he : e ∈ (Tree.parse text).elements) (h : e.HasInContent offset) :
    e.Holds offset := by
  obtain ⟨close, hclose, hafter, hbefore⟩ := h
  have hname := nameSpan_stop_le_close he hclose
  have hnameStop : e.nameSpan.stop = e.span.start + 1 + e.element.tagName.length := rfl
  refine ⟨by omega, ?_⟩
  rcases hbefore with ⟨stop, hstop, hle⟩ | ⟨-, -, hle⟩
  · obtain ⟨-, -, -, hinside, -⟩ := content_between_tags text (mem_elements.mp he) hstop
    omega
  · exact hle

/-- No element inside another one reaches into the start tag of that. -/
lemma not_holds_of_hasInTag (he : e ∈ (Tree.parse text).elements)
    (hx : x ∈ (Tree.parse text).elements) (h : e.HasInTag offset)
    (hinside : (Tree.parse text).IsAncestor e x) : ¬ x.Holds offset := by
  intro hholds
  have ht := parse_nests text
  -- the child on the way from `e` to `x` has the offset, too, and begins behind the start tag
  obtain ⟨c, hc, hce⟩ := (Relation.TransGen.tail'_iff).mp hinside
  obtain ⟨hchild, hcholds⟩ : (Tree.parse text).element? c.id = some c ∧ c.Holds offset := by
    rcases Relation.reflTransGen_iff_eq_or_transGen.mp hc with rfl | hc
    · exact ⟨mem_elements.mp hx, hholds⟩
    · exact ht.holds_outwards hc (mem_elements.mp hx) hholds
  obtain ⟨i, hi, hie⟩ := Option.bind_eq_some_iff.mp hce
  obtain ⟨n, hn, -, hparent, hspan⟩ := (element?_eq_some hchild).2
  obtain ⟨e', he', close, hclose, hafter⟩ := exists_startTag_before hn (hparent.trans hi)
  rw [he', Option.some.injEq] at hie
  subst hie
  have hbefore := h.before close hclose
  rw [hspan] at hafter
  exact absurd hcholds.1 (by omega)

lemma siteAt?_of_element_iff (he : e ∈ (Tree.parse text).elements)
    (hinside : offset ≤ e.span.stop) :
    e.siteAt? offset = some s ↔ e.Tells offset s :=
  ElementNode.siteAt?_iff_tells hinside fun _ ha _ hb => eq_of_touched he ha hb

/-- The innermost element around an offset is where the way to the site begins. -/
lemma climbs_siteAt? (h : (Tree.parse text).enclosingElement? offset = some e) :
    (Tree.parse text).Climbs offset e ((Tree.parse text).siteAt? offset) := by
  have ht := parse_nests text
  obtain ⟨he, -⟩ := ht.holds_of_enclosing h
  obtain ⟨root, hroot⟩ := ht.exists_root he
  rw [Tree.siteAt?, hroot, h]
  exact ht.climbs_outwards he offset

/-- The elements on the way to the site have the offset. -/
lemma holds_of_outwards (h : (Tree.parse text).enclosingElement? offset = some e)
    (hx : x = e ∨ (Tree.parse text).IsAncestor x e) :
    x ∈ (Tree.parse text).elements ∧ x.Holds offset := by
  obtain ⟨he, hholds⟩ := (parse_nests text).holds_of_enclosing h
  rcases hx with rfl | hx
  · exact ⟨mem_elements.mpr he, hholds⟩
  · obtain ⟨hx, hxholds⟩ := (parse_nests text).holds_outwards hx he hholds
    exact ⟨mem_elements.mpr hx, hxholds⟩

/-- A site is told by an element with the offset, and the elements with it that are not around that
tell nothing. -/
lemma exists_tells (h : (Tree.parse text).siteAt? offset = some s) (hs : s ≠ .topLevel) :
    ∃ x ∈ (Tree.parse text).elements, x.Holds offset ∧ x.Tells offset s ∧
      ∀ y ∈ (Tree.parse text).elements, y.Holds offset →
        (y = x ∨ (Tree.parse text).IsAncestor y x) ∨ ∀ s', ¬ y.Tells offset s' := by
  obtain ⟨found, hfound⟩ : ∃ found, (Tree.parse text).enclosingElement? offset = some found := by
    rw [Tree.siteAt?] at h
    split at h
    · exact absurd (Option.some.inj h).symm hs
    · split at h
      · exact ⟨_, ‹_›⟩
      · split_ifs at h
        exact absurd (Option.some.inj h).symm hs
  obtain ⟨x, hx, htold, hbefore⟩ := (climbs_siteAt? hfound).exists_told h
  obtain ⟨hmem, hholds⟩ := holds_of_outwards hfound hx
  refine ⟨x, hmem, hholds, (siteAt?_of_element_iff hmem hholds.2).mp htold, fun y hy hyholds => ?_⟩
  have hway := (parse_nests text).around_of_enclosing hfound (mem_elements.mp hy) hyholds
  refine (hbefore y hway).imp_right fun hnone s' htells => ?_
  rw [(siteAt?_of_element_iff hy hyholds.2).mpr htells] at hnone
  cases hnone

/-- An element with the offset tells the site if those inside it tell nothing. -/
lemma siteAt?_eq_of_tells (hx : x ∈ (Tree.parse text).elements) (hholds : x.Holds offset)
    (htells : x.Tells offset s)
    (hsilent : ∀ y ∈ (Tree.parse text).elements, y.Holds offset →
      (Tree.parse text).IsAncestor x y → ∀ s', ¬ y.Tells offset s') :
    (Tree.parse text).siteAt? offset = some s := by
  obtain ⟨found, hfound, -⟩ := (parse_nests text).exists_enclosing (mem_elements.mp hx) hholds
  have hway := (parse_nests text).around_of_enclosing hfound (mem_elements.mp hx) hholds
  refine (climbs_siteAt? hfound).reaches hway
    ((siteAt?_of_element_iff hx hholds.2).mpr htells) fun y hy hinside => ?_
  obtain ⟨hmem, hyholds⟩ := holds_of_outwards hfound hy
  cases htold : y.siteAt? offset with
  | none => rfl
  | some s' =>
      have htells' := (siteAt?_of_element_iff hmem hyholds.2).mp htold
      exact absurd htells' (hsilent y hmem hyholds hinside s')

/-- Where an offset is in a start tag, this decides the site. -/
lemma siteAt?_eq_of_hasInTag (he : e ∈ (Tree.parse text).elements) (h : e.HasInTag offset)
    (htells : e.Tells offset s) : (Tree.parse text).siteAt? offset = some s :=
  siteAt?_eq_of_tells he (holds_of_hasInTag h) htells fun _ hy hholds hinside =>
    absurd hholds (not_holds_of_hasInTag he hy h hinside)

/-- The content that an offset is in is in no start tag, and in the content of no element but those
around. -/
lemma of_siteAt?_eq_content (h : (Tree.parse text).siteAt? offset = some (.content e)) :
    (∀ x ∈ (Tree.parse text).elements, ¬ x.HasInTag offset) ∧
      e ∈ (Tree.parse text).elements ∧ e.HasInContent offset ∧
      ∀ x ∈ (Tree.parse text).elements, x.HasInContent offset →
        x = e ∨ (Tree.parse text).IsAncestor x e := by
  obtain ⟨e, he, hholds, _ | _ | ⟨hout, hcontent⟩, hway⟩ := exists_tells h (by rintro ⟨⟩)
  have hnone : ∀ x ∈ (Tree.parse text).elements, ¬ x.HasInTag offset := by
    intro x hx htag
    rcases hway x hx (holds_of_hasInTag htag) with (rfl | haround) | hsilent
    · exact hout htag
    · exact not_holds_of_hasInTag hx he htag haround hholds
    · obtain ⟨s', htells⟩ := htag.exists_tells
      exact hsilent s' htells
  refine ⟨hnone, he, hcontent, fun x hx hxcontent => ?_⟩
  have htells := ElementNode.Tells.content (hnone x hx) hxcontent
  exact (hway x hx (holds_of_hasInContent hx hxcontent)).resolve_right fun hsilent =>
    hsilent _ htells

/-- **The site of an offset.**  It is in the start tag of an element exactly if the offset is there,
and at an attribute if it touches the value of that.  It is the content of an element exactly if the
offset is in no start tag and the content of this element has it, but of none inside; all others
whose contents have it are around this one.  The way to the site comes to an end. -/
theorem siteAt?_eq_some_iff (text : List Char) (offset : Nat) (e : ElementNode) :
    ((Tree.parse text).siteAt? offset = some (.startTag e) ↔
      e ∈ (Tree.parse text).elements ∧ e.HasInTag offset ∧
        ∀ a ∈ e.element.attributes, ¬ a.HasInValue offset) ∧
    (∀ name, (Tree.parse text).siteAt? offset = some (.attributeValue e name) ↔
      e ∈ (Tree.parse text).elements ∧ e.HasInTag offset ∧
        ∃ a ∈ e.element.attributes, a.name = name ∧ a.HasInValue offset) ∧
    ((Tree.parse text).siteAt? offset = some (.content e) ↔
      (∀ x ∈ (Tree.parse text).elements, ¬ x.HasInTag offset) ∧
        e ∈ (Tree.parse text).elements ∧ e.HasInContent offset ∧
        ∀ x ∈ (Tree.parse text).elements, x.HasInContent offset →
          ¬ (Tree.parse text).IsAncestor e x) ∧
    ((Tree.parse text).siteAt? offset = some (.content e) →
      ∀ x ∈ (Tree.parse text).elements, x.HasInContent offset →
        x = e ∨ (Tree.parse text).IsAncestor x e) ∧
    ((Tree.parse text).enclosingElement? offset = some e →
      (Tree.parse text).Climbs offset e ((Tree.parse text).siteAt? offset)) := by
  refine ⟨⟨fun h => ?_, ?_⟩, fun name => ⟨fun h => ?_, ?_⟩, ⟨fun h => ?_, ?_⟩, fun h => ?_,
    climbs_siteAt?⟩
  · obtain ⟨x, hx, -, ⟨htag, hplain⟩ | _ | _, -⟩ := exists_tells h (by rintro ⟨⟩)
    exact ⟨hx, htag, hplain⟩
  · rintro ⟨he, htag, hplain⟩
    exact siteAt?_eq_of_hasInTag he htag (.startTag htag hplain)
  · obtain ⟨x, hx, -, _ | ⟨htag, ha, hvalue⟩ | _, -⟩ := exists_tells h (by rintro ⟨⟩)
    exact ⟨hx, htag, _, ha, rfl, hvalue⟩
  · rintro ⟨he, htag, a, ha, rfl, hvalue⟩
    exact siteAt?_eq_of_hasInTag he htag (.value htag ha hvalue)
  · obtain ⟨hnone, he, hcontent, haround⟩ := of_siteAt?_eq_content h
    refine ⟨hnone, he, hcontent, fun x hx hxcontent hinside => ?_⟩
    have hlt := (parse_nests text).id_lt_of_isAncestor hinside (mem_elements.mp hx)
    rcases haround x hx hxcontent with rfl | hx'
    · exact Nat.lt_irrefl _ hlt
    · exact Nat.lt_asymm hlt ((parse_nests text).id_lt_of_isAncestor hx' (mem_elements.mp he))
  · rintro ⟨hnone, he, hcontent, hdeepest⟩
    have htells := ElementNode.Tells.content (hnone e he) hcontent
    refine siteAt?_eq_of_tells he (holds_of_hasInContent he hcontent) htells ?_
    rintro y hy - hinside s' (⟨htag, -⟩ | ⟨htag, -, -⟩ | ⟨-, hycontent⟩)
    · exact hnone y hy htag
    · exact hnone y hy htag
    · exact hdeepest y hy hycontent hinside
  · exact (of_siteAt?_eq_content h).2.2.2

/-- Inside a value, between two children, and behind the start tag of an element that is never
closed. -/
theorem siteAt?_eq_some_iff_unclosed :
    (∃ b ∈ (Tree.parse "<a><b v='x'/><c>".toList).elements, b.element.tagName = "b" ∧
      (Tree.parse "<a><b v='x'/><c>".toList).siteAt? 10 = some (.attributeValue b "v") ∧
      b.HasInTag 10) ∧
    (∃ a ∈ (Tree.parse "<a><b v='x'/><c>".toList).elements, a.element.tagName = "a" ∧
      (∀ x ∈ (Tree.parse "<a><b v='x'/><c>".toList).elements, ¬ x.HasInTag 13) ∧
      a.HasInContent 13 ∧
      ∀ x ∈ (Tree.parse "<a><b v='x'/><c>".toList).elements, x.HasInContent 13 →
        x = a ∨ (Tree.parse "<a><b v='x'/><c>".toList).IsAncestor x a) ∧
    ∃ c ∈ (Tree.parse "<a><b v='x'/><c>".toList).elements, c.element.tagName = "c" ∧
      (Tree.parse "<a><b v='x'/><c>".toList).enclosingElement? 16 = some c ∧
      (Tree.parse "<a><b v='x'/><c>".toList).Climbs 16 c (some (.content c)) := by
  obtain ⟨b, hb, hbname, hvalue⟩ : ∃ b ∈ (Tree.parse "<a><b v='x'/><c>".toList).elements,
      b.element.tagName = "b" ∧
      (Tree.parse "<a><b v='x'/><c>".toList).siteAt? 10 = some (.attributeValue b "v") := by
    decide +kernel
  obtain ⟨a, ha, haname, hbetween⟩ : ∃ a ∈ (Tree.parse "<a><b v='x'/><c>".toList).elements,
      a.element.tagName = "a" ∧
      (Tree.parse "<a><b v='x'/><c>".toList).siteAt? 13 = some (.content a) := by decide +kernel
  obtain ⟨c, hc, hcname, hfound, hopen⟩ : ∃ c ∈ (Tree.parse "<a><b v='x'/><c>".toList).elements,
      c.element.tagName = "c" ∧
      (Tree.parse "<a><b v='x'/><c>".toList).enclosingElement? 16 = some c ∧
      (Tree.parse "<a><b v='x'/><c>".toList).siteAt? 16 = some (.content c) := by decide +kernel
  obtain ⟨-, hatValue, -⟩ := siteAt?_eq_some_iff "<a><b v='x'/><c>".toList 10 b
  obtain ⟨-, -, hcontent, haround, -⟩ := siteAt?_eq_some_iff "<a><b v='x'/><c>".toList 13 a
  obtain ⟨-, -, -, -, hclimbs⟩ := siteAt?_eq_some_iff "<a><b v='x'/><c>".toList 16 c
  obtain ⟨hnone, -, hhas, -⟩ := hcontent.mp hbetween
  exact ⟨⟨b, hb, hbname, hvalue, ((hatValue "v").mp hvalue).2.1⟩,
    ⟨a, ha, haname, hnone, hhas, haround hbetween⟩, c, hc, hcname, hfound, hopen ▸ hclimbs hfound⟩

end Parsed

end Tree

end XmlAdvisor
