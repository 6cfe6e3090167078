import XmlAdvisor.Proofs.ContentInsertion
import XmlAdvisor.Proofs.ValueExtents
import XmlAdvisor.Proofs.ValueScans

/-!
# Elements with another value

If another value is put in the place of the value of an attribute, the element says this value for
the attribute, and all else as before.  Unless the attribute declares a namespace, the element is
called what it was, as are those around it, so it is declared as before.

* `revalue` — what an attribute says, with another value if it has a certain name.
* `putAllSaid_revalue` — another value may be put in its place before or after the attributes are
  put together.
* **`Tree.exists_revalued`** — an element of a text with another value.
-/

namespace XmlAdvisor

/-! ## Attributes that say another value -/

/-- What an attribute says, with another value if it has a certain name. -/
def revalue (name value : String) (said : String × String) : String × String :=
  if said.1 = name then (name, value) else said

section Said

variable {name value : String} {said : String × String} {l saids : List (String × String)}

@[simp] lemma revalue_fst (name value : String) (said : String × String) :
    (revalue name value said).1 = said.1 := by
  rw [revalue]
  split_ifs with h
  · exact h.symm
  · rfl

lemma revalue_of_ne (h : said.1 ≠ name) : revalue name value said = said :=
  if_neg h

lemma revalue_self (name value old : String) : revalue name value (name, old) = (name, value) :=
  if_pos rfl

lemma map_revalue_of_ne (h : ∀ said ∈ l, said.1 ≠ name) : l.map (revalue name value) = l := by
  rw [List.map_congr_left fun said hsaid => revalue_of_ne (h said hsaid), List.map_id']

/-- Names stay apart when one more attribute is put among them. -/
lemma nodup_putSaid (h : (l.map Prod.fst).Nodup) : ((putSaid said l).map Prod.fst).Nodup := by
  induction l with
  | nil => simp [putSaid]
  | cons p rest ih =>
      rw [List.map_cons, List.nodup_cons] at h
      rw [putSaid]
      split_ifs with hsame
      · rw [List.map_cons, List.nodup_cons, ← hsame]
        exact h
      · rw [List.map_cons, List.nodup_cons, mem_names_putSaid, not_or]
        exact ⟨⟨hsame, h.1⟩, ih h.2⟩

lemma nodup_putAllSaid (h : (l.map Prod.fst).Nodup) (saids : List (String × String)) :
    ((putAllSaid l saids).map Prod.fst).Nodup := by
  induction saids generalizing l with
  | nil => exact h
  | cons said saids ih => exact ih (nodup_putSaid h)

lemma putSaid_map_revalue (said : String × String) (l : List (String × String)) :
    putSaid (revalue name value said) (l.map (revalue name value)) =
      (putSaid said l).map (revalue name value) := by
  induction l with
  | nil => rfl
  | cons p rest ih =>
      rw [List.map_cons, putSaid, putSaid, revalue_fst, revalue_fst]
      split_ifs
      · rfl
      · rw [List.map_cons, ih]

lemma putAllSaid_map_revalue (l saids : List (String × String)) :
    putAllSaid (l.map (revalue name value)) (saids.map (revalue name value)) =
      (putAllSaid l saids).map (revalue name value) := by
  induction saids generalizing l with
  | nil => rfl
  | cons said saids ih =>
      rw [List.map_cons, putAllSaid, List.foldl_cons, putSaid_map_revalue]
      exact ih (putSaid said l)

/-- Whatever an attribute of the name said before is overwritten. -/
lemma putSaid_revalue (h : (l.map Prod.fst).Nodup) (old : String) :
    putSaid (name, value) l = (putSaid (name, old) l).map (revalue name value) := by
  induction l with
  | nil => rw [putSaid, putSaid, List.map_singleton, revalue_self]
  | cons p rest ih =>
      rw [List.map_cons, List.nodup_cons] at h
      rw [putSaid, putSaid]
      split_ifs with hsame
      · have hothers : ∀ said ∈ rest, said.1 ≠ name := by
          intro said hsaid heq
          refine h.1 ?_
          rw [hsame]
          exact List.mem_map.mpr ⟨said, hsaid, heq⟩
        rw [List.map_cons, revalue_self, map_revalue_of_ne hothers]
      · rw [List.map_cons, revalue_of_ne hsame, ih h.2]

/-- **Another value for the last attribute of a name** is the value that the element says. -/
lemma putAllSaid_revalue (first : List (String × String)) (hlast : ∀ said ∈ saids, said.1 ≠ name)
    (old : String) : putAllSaid [] (first ++ (name, value) :: saids) =
      (putAllSaid [] (first ++ (name, old) :: saids)).map (revalue name value) := by
  have hnodup : ((putAllSaid [] first).map Prod.fst).Nodup :=
    nodup_putAllSaid (l := []) List.nodup_nil first
  have hsplit (v : String) : putAllSaid [] (first ++ (name, v) :: saids) =
      putAllSaid (putSaid (name, v) (putAllSaid [] first)) saids := by
    rw [putAllSaid, putAllSaid, putAllSaid, List.foldl_append]
    rfl
  have hkept : saids.map (revalue name value) = saids := map_revalue_of_ne hlast
  rw [hsplit, hsplit, putSaid_revalue hnodup old]
  nth_rewrite 1 [← hkept]
  exact putAllSaid_map_revalue _ saids

end Said

/-- An attribute that is put among others is there, besides those of other names. -/
lemma mem_putAttribute_of_nodup {a b : Attribute} {l : List Attribute}
    (h : (l.map Attribute.name).Nodup)
    (hb : b ∈ putAttribute a l) : b = a ∨ b ∈ l ∧ b.name ≠ a.name := by
  induction l with
  | nil => exact .inl (List.mem_singleton.mp hb)
  | cons c rest ih =>
      rw [List.map_cons, List.nodup_cons] at h
      rw [putAttribute] at hb
      split_ifs at hb with hsame
      · rcases List.mem_cons.mp hb with rfl | hb
        · exact .inl rfl
        · exact .inr ⟨List.mem_cons_of_mem c hb,
            fun heq => h.1 (hsame ▸ heq ▸ List.mem_map_of_mem hb)⟩
      · rcases List.mem_cons.mp hb with rfl | hb
        · exact .inr ⟨List.mem_cons_self .., hsame⟩
        · rcases ih h.2 hb with rfl | ⟨hmem, hne⟩
          · exact .inl rfl
          · exact .inr ⟨List.mem_cons_of_mem c hmem, hne⟩

lemma map_name_putAll (l : List Attribute) :
    (putAll [] l).map Attribute.name = (putAllSaid [] (l.map Attribute.said)).map Prod.fst := by
  rw [← List.map_nil (f := Attribute.said), ← map_said_putAll, List.map_map]
  rfl

/-- The attributes of an element are the last ones of their names. -/
lemma exists_last_of_mem_putAll {a : Attribute} {l : List Attribute} (ha : a ∈ putAll [] l) :
    ∃ first more, l = first ++ a :: more ∧ ∀ b ∈ more, b.name ≠ a.name := by
  induction l using List.reverseRecOn with
  | nil => cases ha
  | append_singleton l b ih =>
      have hput : putAll [] (l ++ [b]) = putAttribute b (putAll [] l) := by
        rw [putAll, List.foldl_append]
        rfl
      have hnodup : ((putAll [] l).map Attribute.name).Nodup := by
        rw [map_name_putAll]
        exact nodup_putAllSaid (l := []) List.nodup_nil _
      rw [hput] at ha
      rcases mem_putAttribute_of_nodup hnodup ha with rfl | ⟨ha, hne⟩
      · exact ⟨l, [], rfl, by rintro _ ⟨⟩⟩
      · obtain ⟨first, more, rfl, hmore⟩ := ih ha
        refine ⟨first, more ++ [b], by simp, fun c hc => ?_⟩
        rcases List.mem_append.mp hc with hc | hc
        · exact hmore c hc
        · rw [List.mem_singleton.mp hc]
          exact hne.symm

/-- The token of one of the attributes that come first among tokens. -/
lemma exists_token_of_attributesFirst {tokens : List Token} {first more : List Attribute}
    {a : Attribute}
    (h : attributesFirst tokens = first ++ a :: more) :
    ∃ before key span behind,
      tokens = before ++ .attribute key a.value a.nameSpan a.valueSpan span :: behind ∧
      key.text = a.name ∧ attributesFirst behind = more ∧
      ∀ tokens', attributesFirst (before ++ tokens') = first ++ attributesFirst tokens' := by
  induction first generalizing tokens with
  | nil =>
      cases tokens with
      | nil => cases h
      | cons t tokens =>
          cases t with
          | «attribute» key value nameSpan valueSpan span =>
              obtain ⟨rfl, rfl⟩ := List.cons.inj h
              exact ⟨[], key, span, tokens, rfl, rfl, rfl, fun _ => rfl⟩
          | _ => cases h
  | cons b first ih =>
      cases tokens with
      | nil => cases h
      | cons t tokens =>
          cases t with
          | «attribute» key value nameSpan valueSpan span =>
              obtain ⟨rfl, hmore⟩ := List.cons.inj h
              obtain ⟨before, key', span', behind, rfl, hkey, hbehind, hfirst⟩ := ih hmore
              exact ⟨_ :: before, key', span', behind, rfl, hkey, hbehind,
                fun tokens' => congrArg (_ :: ·) (hfirst tokens')⟩
          | _ => cases h

/-! ## The tree -/

namespace Builder

variable {text : List Char} {before behind : List Token} {name : QualifiedName} {span : Span}

/-- Where a start tag begins no other is being read, and what it is inside of is there. -/
lemma around_of_tagOpen (h : (scanAll text).1 = before ++ .tagOpen name span :: behind) :
    (after text before).pending = none ∧ ∀ o, (after text before).openIds.head? = some o →
      ((after text before).viewed Front.of o).isSome := by
  have hfollow := follow_scanAll text
  rw [h] at hfollow
  obtain ⟨phase, now, hs, hmore⟩ := steady_empty.append hfollow
  have hphase : phase ≠ .tag := by
    rintro rfl
    cases hmore with
    | cons next => cases next
  refine ⟨hs.pending_none hphase, fun o ho => ?_⟩
  obtain ⟨⟨n, hn, hel⟩, -⟩ := (hs.nested_open hphase).opened o (List.mem_of_head? ho)
  rw [viewed, after, hn]
  show (n.viewed Front.of).isSome
  rw [Node.viewed, Option.isSome_map]
  exact hel

end Builder

namespace Tree

/-- A text with another value for an attribute. -/
def revalued (text : List Char) (a : Attribute) (value : String) : List Char :=
  text.take a.valueSpan.start ++ (value.toList ++ text.drop a.valueSpan.stop)

/-- Whether an element of a tree is one of another tree with another value for an attribute. -/
structure Revalued (t t' : Tree) (e e' : ElementNode) (name value : String) : Prop where
  there : t'.element? e.id = some e'
  start : e'.span.start = e.span.start
  called : e'.element.name = e.element.name
  said : e'.element.attributes.map Attribute.said =
    (e.element.attributes.map Attribute.said).map (revalue name value)
  parent : e'.parent = e.parent
  outwards : ∀ p, e.parent = some p →
    (t'.elementsOutwards p).map ElementNode.front = (t.elementsOutwards p).map ElementNode.front

/-- **An element of a text with another value** says this value for the attribute, and all else as
before. -/
theorem exists_revalued {text : List Char} {e : ElementNode}
    (he : (Tree.parse text).element? e.id = some e)
    {a : Attribute} (ha : a ∈ e.element.attributes) :
    ∃ mark, text[a.valueSpan.stop]? = some mark ∧
      ∀ value : String, fitsBetween mark value.toList = true → ∃ e',
        (Tree.parse text).Revalued (Tree.parse (revalued text a value)) e e' a.name value := by
  obtain ⟨before, name, span, behind, htokens, hid⟩ := Builder.exists_opening he
  have hsignature := Builder.viewed_signature htokens
  rw [hid, viewed_of_element? he] at hsignature
  obtain ⟨hparent, hstart, hname, hattributes⟩ := Signature.mk.inj (Option.some.inj hsignature)
  obtain ⟨now, hencloses⟩ := exists_encloses (mem_elements.mpr he)
  have hbehind := hencloses.behind a ha
  have hinside := ((spelled_of_element? he).2 a ha).value.inside.1
  rw [hattributes] at ha
  obtain ⟨first, more, hsplit, hmore⟩ := exists_last_of_mem_putAll ha
  obtain ⟨lead, key, span', rest, rfl, hkey, hrest, hfirst⟩ :=
    exists_token_of_attributesFirst hsplit
  have hall : (scanAll text).1 = (before ++ .tagOpen name span :: lead) ++
      .attribute key a.value a.nameSpan a.valueSpan span' :: rest := by
    rw [htokens]
    simp
  obtain ⟨mark, hmark, hrevalued⟩ := exists_tokens_revalued hall
  refine ⟨mark, hmark, fun value hvalue => ?_⟩
  obtain ⟨span'', rest', hall', hsaid⟩ := hrevalued value hvalue
  have htokens' : (scanAll (revalued text a value)).1 = before ++ .tagOpen name span ::
      (lead ++ .attribute key value a.nameSpan
        ⟨a.valueSpan.start, a.valueSpan.start + value.toList.length⟩ span'' :: rest') := by
    rw [revalued, hall']
    simp
  -- the text is the same up to the start tag
  have hbefore : span.start ≤ a.valueSpan.start := by omega
  have hafter : Builder.after text before = Builder.after (revalued text a value) before := by
    refine Builder.after_of_take htokens ?_
    show text.take span.start = (revalued text a value).take span.start
    rw [revalued, List.take_append_of_le_length (by rw [List.length_take]; omega), List.take_take,
      Nat.min_eq_left hbefore]
  have hsignature' := Builder.viewed_signature htokens'
  rw [← hafter, hid, viewed_eq] at hsignature'
  obtain ⟨e', he', heq⟩ := Option.map_eq_some_iff.mp hsignature'
  obtain ⟨hparent', hstart', hname', hattributes'⟩ := Signature.mk.inj heq
  refine ⟨e', he', hstart'.trans hstart.symm, hname'.trans hname.symm, ?_,
    hparent'.trans hparent.symm, ?_⟩
  · have hnames : ∀ said ∈ saidFirst rest, said.1 ≠ a.name := by
      rw [← map_said_attributesFirst, hrest]
      intro said hmem
      obtain ⟨b, hb, rfl⟩ := List.mem_map.mp hmem
      exact hmore b hb
    have hsaids (v : String) (vs : Span) (sp : Span) (tokens : List Token) :
        (attributesFirst (lead ++ .attribute key v a.nameSpan vs sp :: tokens)).map Attribute.said =
          first.map Attribute.said ++ (a.name, v) :: saidFirst tokens := by
      rw [hfirst, List.map_append, ← map_said_attributesFirst, ← hkey]
      rfl
    rw [hattributes', hattributes, map_said_putAll, map_said_putAll, hsaids, hsaids, hsaid,
      List.map_nil]
    exact putAllSaid_revalue _ hnames a.value
  · intro p hp
    obtain ⟨hnone, hthere⟩ := Builder.around_of_tagOpen htokens
    exact Builder.fronts_outwards htokens hnone htokens' hafter.symm (hthere p (hparent ▸ hp))

namespace Revalued

variable {text text' : List Char} {e e' : ElementNode} {name value : String}
  (h : (Tree.parse text).Revalued (Tree.parse text') e e' name value)
include h

/-- The attribute says the other value. -/
lemma exists_attribute {a : Attribute} (ha : a ∈ e.element.attributes) (hname : a.name = name) :
    ∃ a' ∈ e'.element.attributes, a'.name = name ∧ a'.value = value := by
  have hmem : (name, value) ∈ e'.element.attributes.map Attribute.said := by
    rw [h.said, List.map_map]
    refine List.mem_map.mpr ⟨a, ha, ?_⟩
    rw [Function.comp_apply, Attribute.said, hname, revalue_self]
  obtain ⟨a', ha', hsaid⟩ := List.mem_map.mp hmem
  exact ⟨a', ha', congrArg Prod.fst hsaid, congrArg Prod.snd hsaid⟩

/-- The others say what they said. -/
lemma value_attribute? {n : String} (hne : n ≠ name) :
    (e'.element.attribute? n).map Attribute.value =
    (e.element.attribute? n).map Attribute.value := by
  have hvalue (x : Element) : (x.attribute? n).map Attribute.value =
      ((x.attributes.map Attribute.said).find? (·.1 = n)).map Prod.snd := by
    rw [Element.attribute?, List.find?_map, Option.map_map]
    rfl
  have hkept (l : List (String × String)) :
      (l.map (revalue name value)).find? (·.1 = n) = l.find? (·.1 = n) := by
    induction l with
    | nil => rfl
    | cons said l ih =>
        rw [List.map_cons, List.find?_cons, List.find?_cons, revalue_fst, ih]
        by_cases hsaid : said.1 = n
        · rw [revalue_of_ne (hsaid ▸ hne)]
        · simp [hsaid]
  rw [hvalue, hvalue, h.said, hkept]

/-- The way outwards is the same around the element. -/
lemma fronts_around :
    (e'.parent.toList.flatMap fun p => (Tree.parse text').elementsOutwards p).map
    ElementNode.front =
      (e.parent.toList.flatMap fun p => (Tree.parse text).elementsOutwards p).map
      ElementNode.front := by
  rw [h.parent]
  cases hp : e.parent with
  | none => rfl
  | some p => simpa using h.outwards p hp

variable (he : (Tree.parse text).element? e.id = some e)
  (hplain : XmlAdvisor.declaresNamespace name = false)
include he hplain

/-- An element is called what it was if the attribute declares no namespace. -/
lemma heading : e'.heading = e.heading := by
  have hne (q : Option String) : declaringName q ≠ name := by
    intro heq
    rw [← heq] at hplain
    cases q with
    | none => cases hplain
    | some q =>
        rw [declaringName, XmlAdvisor.declaresNamespace, Bool.or_eq_false_iff] at hplain
        have hbegins : "xmlns:".toList.isPrefixOf ("xmlns:" ++ q).toList = true := by
          rw [List.isPrefixOf_iff_prefix, String.toList_append]
          exact List.prefix_append ..
        rw [hbegins] at hplain
        cases hplain.2
  have hdeclared (l : List ElementNode) (n : String) :
      (l.findSome? fun x => x.element.attribute? n).map Attribute.value =
        (l.map ElementNode.front).findSome? fun front =>
          (front.element.attribute? n).map Attribute.value := by
    rw [List.map_findSome?, List.findSome?_map]
    rfl
  have hown : (e'.front.element.attribute? (declaringName e.element.name.qualifier)).map
      Attribute.value =
      (e.front.element.attribute? (declaringName e.element.name.qualifier)).map Attribute.value :=
    h.value_attribute? (hne e.element.name.qualifier)
  have huri : e'.element.namespaceUri = e.element.namespaceUri := by
    rw [namespaceUri_eq_namespaceFrom (mem_elements.mpr (element?_id h.there)),
      namespaceUri_eq_namespaceFrom (mem_elements.mpr he), h.called, (element?_eq_some h.there).1,
      (parse_nests text').elementsOutwards_cons h.there,
      (parse_nests text).elementsOutwards_cons he,
      hdeclared, hdeclared, List.map_cons, List.map_cons, List.findSome?_cons, List.findSome?_cons,
      h.fronts_around, hown]
  rw [ElementNode.heading, ElementNode.heading, Heading.of, Heading.of, h.called, huri]

/-- It is declared as it was. -/
lemma declarationOf?_eq (g : Grammar) :
    g.declarationOf? (Tree.parse text') e' = g.declarationOf? (Tree.parse text) e := by
  refine g.declarationOf?_of_headings (h.heading he hplain) ?_
  rw [(element?_eq_some h.there).1, (parse_nests text').elementsOutwards_cons h.there,
    (parse_nests text).elementsOutwards_cons he, List.map_cons, List.map_cons, h.heading he hplain,
    ElementNode.headings_of_fronts h.fronts_around]

end Revalued

end Tree

end XmlAdvisor
