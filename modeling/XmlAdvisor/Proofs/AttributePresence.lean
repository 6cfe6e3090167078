import XmlAdvisor.Proofs.AttributeReach
import XmlAdvisor.Tree.Build
import XmlAdvisor.Tree.Lookup
import XmlAdvisor.Validation.Violation

/-!
# Attributes that satisfy a content model are not reported

Whether attributes are missing or not allowed is decided from two lists, the attributes that a
content model leads to and those that it leads to without a choice.  Here a content model is said to
take attributes as the schema language has it, and what it takes is compared with the lists.

* `Schema.Takes` — the attributes that a pattern takes, by their names.
* `Takes.of_leads` — what a pattern leads to without a choice takes a share of its attributes.
* `Takes.leadsToName` — each attribute has its name from one that the pattern leads to.
* **`taken_not_reported`** — if the content model takes the attributes of an element, none of them
  is reported as not allowed, and none is reported as missing.
-/

namespace XmlAdvisor

namespace Schema

variable {s : Schema} {id p m content : Nat} {names : List (String × String)}
  {n : String × String}

/-! ## What a pattern takes -/

/-- Whether a pattern stands for no attributes: an element has its own, and text has none. -/
def isAttributeless (s : Schema) (id : Nat) : Bool :=
  match s.pattern id with
  | .element .. | .empty | .text | .data _ | .value _ | .list _ => true
  | _ => false

/-- Whether a pattern takes attributes with the given names, listed part by part: an attribute takes
one name of its class, a choice what one of its members takes, a group or an interleaving a share
for each member, a repetition one share or more, and a reference what the definition takes. -/
inductive Takes (s : Schema) : Nat → List (String × String) → Prop
  | nothing {id : Nat} (hnone : s.isAttributeless id = true) : Takes s id []
  | single {id : Nat} {name : NameClass} {n : String × String}
      (hname : s.attributeName? id = some name) (hn : name.contains n.1 n.2 = true) : Takes s id [n]
  | choice {id m : Nat} {members : List Nat} {names : List (String × String)}
      (hp : s.pattern id = .choice members) (hm : m ∈ members) (h : Takes s m names) :
      Takes s id names
  | all {id : Nat} {members : List Nat} {shares : List (List (String × String))}
      (hp : s.pattern id = .group members ∨ s.pattern id = .interleave members)
      (hlen : members.length = shares.length)
      (h : ∀ x ∈ members.zip shares, Takes s x.1 x.2) : Takes s id shares.flatten
  | once {id body : Nat} {names : List (String × String)} (hp : s.pattern id = .oneOrMore body)
      (h : Takes s body names) : Takes s id names
  | again {id body : Nat} {names more : List (String × String)}
      (hp : s.pattern id = .oneOrMore body) (h : Takes s body names) (hmore : Takes s id more) :
      Takes s id (names ++ more)
  | ref {id d body : Nat} {names : List (String × String)} (hp : s.pattern id = .ref d)
      (hb : s.body? d = some body) (h : Takes s body names) : Takes s id names

/-- The parts of a pattern that holds all its members. -/
lemma parts_of_all {members : List Nat}
    (hp : s.pattern id = .group members ∨ s.pattern id = .interleave members) (through : Bool) :
    s.parts through id = members := by
  rw [parts]
  rcases hp with hp | hp <;> rw [hp]

lemma exists_pattern_of_attributeName? {name : NameClass} (h : s.attributeName? p = some name) :
    ∃ value documentation default, s.pattern p = .attribute name value documentation default := by
  rw [attributeName?] at h
  split at h
  · rename_i hp
    cases h
    exact ⟨_, _, _, hp⟩
  · cases h

/-- Each part that is not behind a choice takes a share. -/
lemma Takes.of_part (h : s.Takes id names) (hm : m ∈ s.parts false id) :
    ∃ share ⊆ names, s.Takes m share := by
  cases h with
  | nothing hnone =>
      rw [isAttributeless] at hnone
      rw [parts] at hm
      split at hnone <;> rename_i hp <;> simp [hp] at hm hnone
  | single hname hn =>
      obtain ⟨_, _, _, hp⟩ := exists_pattern_of_attributeName? hname
      simp [parts, hp] at hm
  | choice hp _ _ => simp [parts, hp] at hm
  | all hp hlen h =>
      rw [parts_of_all hp, ← List.map_fst_zip (Nat.le_of_eq hlen)] at hm
      obtain ⟨x, hx, rfl⟩ := List.mem_map.mp hm
      have hshare : x.2 ⊆ List.flatten _ := fun n hn =>
        List.mem_flatten.mpr ⟨x.2, (List.of_mem_zip hx).2, hn⟩
      exact ⟨x.2, hshare, h x hx⟩
  | once hp h =>
      simp only [parts, hp, List.mem_singleton] at hm
      exact ⟨names, List.Subset.refl _, hm ▸ h⟩
  | again hp h _ =>
      simp only [parts, hp, List.mem_singleton] at hm
      exact ⟨_, List.subset_append_left .., hm ▸ h⟩
  | ref hp hb h =>
      simp only [parts, hp, hb, Option.toList_some, List.mem_singleton] at hm
      exact ⟨names, List.Subset.refl _, hm ▸ h⟩

/-- What a pattern leads to without a choice takes a share of its attributes. -/
lemma Takes.of_leads (hl : s.Leads false id p) (h : s.Takes id names) :
    ∃ share ⊆ names, s.Takes p share := by
  induction hl with
  | refl => exact ⟨names, List.Subset.refl _, h⟩
  | tail _ hm ih =>
      obtain ⟨share, hshare, hq⟩ := ih
      obtain ⟨less, hless, hm⟩ := hq.of_part hm
      exact ⟨less, List.Subset.trans hless hshare, hm⟩

/-- Whether a pattern leads to an attribute whose class has a name. -/
def LeadsToName (s : Schema) (id : Nat) (n : String × String) : Prop :=
  ∃ p name, s.Leads true id p ∧ s.attributeName? p = some name ∧ name.contains n.1 n.2 = true

lemma LeadsToName.of_part (h : s.LeadsToName m n) (hm : m ∈ s.parts true id) :
    s.LeadsToName id n := by
  obtain ⟨p, name, hl, hp⟩ := h
  exact ⟨p, name, .head hm hl, hp⟩

/-- Each attribute that a pattern takes has its name from one that the pattern leads to. -/
lemma Takes.leadsToName (h : s.Takes id names) (hn : n ∈ names) : s.LeadsToName id n := by
  induction h with
  | nothing => cases hn
  | single hname hcontains =>
      rw [List.mem_singleton.mp hn]
      exact ⟨_, _, .refl, hname, hcontains⟩
  | choice hp hm _ ih => exact (ih hn).of_part (by simpa [parts, hp] using hm)
  | all hp hlen _ ih =>
      obtain ⟨share, hshare, hn⟩ := List.mem_flatten.mp hn
      rw [← List.map_snd_zip (Nat.le_of_eq hlen.symm)] at hshare
      obtain ⟨x, hx, rfl⟩ := List.mem_map.mp hshare
      exact (ih x hx hn).of_part (parts_of_all hp true ▸ (List.of_mem_zip hx).1)
  | once hp _ ih => exact (ih hn).of_part (by simp [parts, hp])
  | again hp _ _ ih ihmore =>
      rcases List.mem_append.mp hn with hn | hn
      · exact (ih hn).of_part (by simp [parts, hp])
      · exact ihmore hn
  | ref hp hb _ ih => exact (ih hn).of_part (by simp [parts, hp, hb])

/-- An attribute takes one name of its class. -/
lemma Takes.exists_of_attributeName? {name : NameClass} (hname : s.attributeName? p = some name)
    (h : s.Takes p names) : ∃ n ∈ names, name.contains n.1 n.2 = true := by
  obtain ⟨_, _, _, hp⟩ := exists_pattern_of_attributeName? hname
  cases h with
  | nothing hnone => simp [isAttributeless, hp] at hnone
  | single hname' hn =>
      rw [hname] at hname'
      cases hname'
      exact ⟨_, List.mem_singleton_self _, hn⟩
  | choice hp' => cases hp.symm.trans hp'
  | all hp' => rcases hp' with hp' | hp' <;> cases hp.symm.trans hp'
  | once hp' => cases hp.symm.trans hp'
  | again hp' => cases hp.symm.trans hp'
  | ref hp' => cases hp.symm.trans hp'

/-! ## Declared attributes -/

lemma isAttribute_iff : s.isAttribute p = true ↔ ∃ name, s.attributeName? p = some name := by
  rw [isAttribute, attributeName?]
  cases s.pattern p <;> simp

/-- A declared attribute stands for an attribute pattern with one name. -/
lemma exists_of_mem_attributeDeclarations {a : AttributeDeclaration}
    (ha : a ∈ s.attributeDeclarations content) :
    ∃ p name ns, (p, a.required) ∈ s.attributePatterns content ∧ s.attributeName? p = some name ∧
      name.simple? = some (ns, a.name) := by
  obtain ⟨⟨p, required⟩, hmem, ha⟩ := List.mem_filterMap.mp ha
  dsimp only at ha
  split at ha
  · rename_i name _ _ _ hp
    obtain ⟨⟨ns, l⟩, hsimple, rfl⟩ := Option.map_eq_some_iff.mp ha
    exact ⟨p, name, ns, hmem, by rw [attributeName?, hp], hsimple⟩
  · cases ha

/-- A name of an attribute that a content model leads to is declared, or any name is accepted. -/
lemma LeadsToName.exists_declared (h : s.LeadsToName content n) :
    s.hasWildcardAttribute content = true ∨ ∃ a ∈ s.attributeDeclarations content,
    a.name = n.2 := by
  obtain ⟨p, name, hl, hname, hn⟩ := h
  obtain ⟨r, hmem⟩ := exists_mem_attributePatterns (isAttribute_iff.mpr ⟨name, hname⟩) hl
  cases hsimple : name.simple? with
  | none => exact .inl (List.any_eq_true.mpr ⟨_, hmem, by simp [hname, hsimple]⟩)
  | some m =>
      obtain ⟨value, documentation, default, hp⟩ := exists_pattern_of_attributeName? hname
      rw [NameClass.contains_of_simple? hsimple, Bool.and_eq_true, beq_iff_eq, beq_iff_eq] at hn
      right
      refine ⟨⟨m.2, r, default, s.enumeratedValues value, documentation⟩,
        List.mem_filterMap.mpr ⟨_, hmem, ?_⟩, hn.2⟩
      simp only [hp, hsimple, Option.map_some]

end Schema

/-! ## What is reported -/

section Reported

variable {s : Schema} {id content : Nat} {e : ElementNode} {taken : List (String × String)}
  {namespaceOf : Attribute → String}

/-- The names of the attributes of an element that are checked, given their namespaces. -/
def ElementNode.checkedNames (e : ElementNode) (namespaceOf : Attribute → String) :
    List (String × String) :=
  (e.element.attributes.filter Attribute.isChecked).map fun a => (namespaceOf a, a.localName)

/-- No attribute is missing from those that the content model takes. -/
lemma missingAttributes_eq_nil (hc : s.elementContent? id = some content)
    (h : s.Takes content taken) (hperm : taken.Perm (e.checkedNames namespaceOf)) :
    missingAttributes (.pattern s id) e = [] := by
  refine List.filterMap_eq_nil_iff.mpr fun a ha => if_pos ?_
  obtain ⟨hdeclared, hrequired⟩ := List.mem_filter.mp ha
  rw [Declaration.attributes, hc] at hdeclared
  obtain ⟨p, name, ns, hmem, hname, hsimple⟩ := Schema.exists_of_mem_attributeDeclarations hdeclared
  have hl := (Schema.mem_attributePatterns_iff.mp hmem).2.2.mp hrequired
  obtain ⟨share, hshare, hp⟩ := h.of_leads hl
  obtain ⟨n, hn, hcontains⟩ := hp.exists_of_attributeName? hname
  rw [NameClass.contains_of_simple? hsimple, Bool.and_eq_true, beq_iff_eq, beq_iff_eq] at hcontains
  obtain ⟨b, hb, rfl⟩ := List.mem_map.mp (hperm.subset (hshare hn))
  refine List.any_eq_true.mpr ⟨b, (List.mem_filter.mp hb).1, ?_⟩
  simp [Attribute.goesBy, hcontains.2]

/-- An attribute that the content model takes is declared, or any attribute is accepted. -/
lemma attributeFor?_isSome_or (hc : s.elementContent? id = some content) (h : s.Takes content taken)
    (hperm : taken.Perm (e.checkedNames namespaceOf)) {a : Attribute}
    (ha : a ∈ e.element.attributes.filter Attribute.isChecked) :
    ((Declaration.pattern s id).attributeFor? a).isSome = true ∨
      (Declaration.pattern s id).acceptsAnyAttribute = true := by
  have hn : (namespaceOf a, a.localName) ∈ taken := hperm.mem_iff.mpr (List.mem_map_of_mem ha)
  rcases (h.leadsToName hn).exists_declared with hwild | ⟨decl, hdecl, hlocal⟩
  · exact .inr (by simp [Declaration.acceptsAnyAttribute, hc, hwild])
  · left
    rw [Declaration.attributeFor?, Option.isSome_or, Bool.or_eq_true]
    right
    refine List.find?_isSome.mpr ⟨decl, ?_, decide_eq_true hlocal⟩
    rw [Declaration.attributes, hc]
    exact hdecl

/-- **If the content model takes the attributes of an element, no attribute is reported as missing
or as not allowed**, whatever the namespaces of the attributes are. -/
theorem taken_not_reported (hc : s.elementContent? id = some content) (h : s.Takes content taken)
    (hperm : taken.Perm (e.checkedNames namespaceOf)) :
    ∀ v ∈ attributeViolations (.pattern s id) e,
      v.problem ≠ .requiredAttributeMissing ∧ v.problem ≠ .attributeNotAllowed := by
  intro v hv
  rw [attributeViolations, missingAttributes_eq_nil hc h hperm, List.nil_append] at hv
  obtain ⟨a, ha, hv⟩ := List.mem_filterMap.mp hv
  have hallowed := attributeFor?_isSome_or hc h hperm ha
  rw [attributeViolation?] at hv
  split at hv
  · rename_i hnone
    rw [hnone] at hallowed
    rw [if_pos (hallowed.resolve_left (by simp))] at hv
    cases hv
  · split_ifs at hv
    cases hv
    exact ⟨by simp, by simp⟩

end Reported

/-- Links with a number that lead somewhere, by a reference of another namespace perhaps to a
further link; the definition leads back to itself. -/
def Schema.links : Schema where
  patterns := #[.ref 0, .element (.name "" "a") 0 none, .text,
    .attribute (.name "" "id") 2 none none,
    .attribute (.name "" "href") 2 none none, .attribute (.name "x" "ref") 2 none none, .empty,
    .choice [6, 0], .group [5, 7], .choice [4, 8], .interleave [3, 9]]
  definitions := #[⟨"link", some 10⟩]
  start := 1

/-- A link by a reference. -/
def linkText : List Char :=
  "<a x:ref='b' xmlns:x='x' id='1'/>".toList

/-- The document element of `linkText`. -/
def linkElement : ElementNode :=
  ⟨0, none, ⟨0, 33⟩, ⟨⟨none, "a"⟩, none, [⟨"x:ref", "b", ⟨3, 8⟩, ⟨10, 11⟩⟩,
    ⟨"xmlns:x", "x", ⟨13, 20⟩, ⟨22, 23⟩⟩, ⟨"id", "1", ⟨25, 27⟩, ⟨29, 30⟩⟩], [], some 32,
      none, true⟩⟩

/-- The content model of a link takes a number and a reference. -/
lemma Schema.takes_links : links.Takes 0 [("", "id"), ("x", "ref")] := by
  have hid : links.Takes 3 [("", "id")] := .single rfl (by decide)
  have href : links.Takes 5 [("x", "ref")] := .single rfl (by decide)
  have hend : links.Takes 7 [] := .choice rfl (List.mem_cons_self ..) (.nothing rfl)
  have hfurther : links.Takes 8 ([[("x", "ref")], []] : List (List (String × String))).flatten :=
    .all (.inl rfl) rfl (by simp [href, hend])
  have htarget : links.Takes 9 [("x", "ref")] := .choice (m := 8) rfl (by decide) hfurther
  have hlink : links.Takes 10 [[("", "id")], [("x", "ref")]].flatten :=
    .all (.inr rfl) rfl (by simp [hid, htarget])
  exact .ref rfl rfl hlink

theorem taken_not_reported_links :
    let t := Tree.parse linkText
    let namespaceOf := fun a : Attribute =>
      (a.qualifier.bind fun q => t.lookupNamespace linkElement (some q)).getD ""
    linkElement ∈ t.elements ∧ Schema.links.elementContent? 1 = some 0 ∧
    Schema.links.Takes 0 [("", "id"), ("x", "ref")] ∧
    [("", "id"), ("x", "ref")].Perm (linkElement.checkedNames namespaceOf) ∧
    ∀ v ∈ attributeViolations (.pattern Schema.links 1) linkElement,
      v.problem ≠ .requiredAttributeMissing ∧ v.problem ≠ .attributeNotAllowed := by
  intro t namespaceOf
  have hc : Schema.links.elementContent? 1 = some 0 := rfl
  have hperm : [("", "id"), ("x", "ref")].Perm (linkElement.checkedNames namespaceOf) := by
    decide +kernel
  exact ⟨by decide +kernel, hc, Schema.takes_links, hperm,
    taken_not_reported hc Schema.takes_links hperm⟩

end XmlAdvisor
