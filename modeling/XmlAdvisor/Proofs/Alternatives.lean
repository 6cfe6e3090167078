import XmlAdvisor.Proofs.CompiledSchema
import XmlAdvisor.Proofs.NextElements
import XmlAdvisor.Proofs.TreeShape

/-!
# The alternatives for incomplete content are exact

When the content of an element ends too early, the elements of which one has to come next are
offered.  This module shows that the offer is right in both directions: each offered element can
stand there, and whatever completes the content has one of them.

* `Schema.kept` — the children that the content check goes on with; `kept_eq_filter` — they are
  those it does not report.
* `mem_allowed_foldChildren` — what the check is left with allows what completes the kept children.
* `AlternativesExact` — what it means for the offer to be right.
* **`alternatives_exact`** — it is right in every compiled schema whose elements have simple names
  and whose patterns can all be matched.
-/

namespace XmlAdvisor

open scoped Computability

/-! ## Lists without repetitions of a key -/

section DistinctBy

variable {α κ : Type} [DecidableEq κ] {key : α → κ}

lemma mem_foldl_distinctBy {a : α} (items kept : List α)
    (h : a ∈ items.foldl (fun kept a => if kept.any (key · = key a) then kept else kept ++ [a])
      kept) : a ∈ kept ∨ a ∈ items := by
  induction items generalizing kept with
  | nil => exact .inl h
  | cons b items ih =>
      rcases ih _ h with h | h
      · dsimp only at h
        split_ifs at h
        · exact .inl h
        · rcases List.mem_append.mp h with h | h
          · exact .inl h
          · exact .inr (by simp [List.mem_singleton.mp h])
      · exact .inr (List.mem_cons_of_mem b h)

lemma mem_of_mem_distinctBy {a : α} {items : List α} (h : a ∈ distinctBy key items) : a ∈ items :=
  (mem_foldl_distinctBy items [] h).resolve_left (List.not_mem_nil)

lemma exists_mem_foldl_distinctBy {k : κ} (items kept : List α)
    (h : (∃ a ∈ kept, key a = k) ∨ ∃ a ∈ items, key a = k) :
    ∃ a ∈ items.foldl (fun kept a => if kept.any (key · = key a) then kept else kept ++ [a]) kept,
      key a = k := by
  induction items generalizing kept with
  | nil => simpa using h
  | cons b items ih =>
      refine ih _ ?_
      rcases h with ⟨a, ha, hk⟩ | ⟨a, ha, hk⟩
      · refine .inl ⟨a, ?_, hk⟩
        dsimp only
        split_ifs
        · exact ha
        · exact List.mem_append_left _ ha
      · rcases List.mem_cons.mp ha with rfl | ha
        · left
          dsimp only
          split_ifs with hany
          · obtain ⟨c, hc, hca⟩ := List.any_eq_true.mp hany
            exact ⟨c, hc, (of_decide_eq_true hca).trans hk⟩
          · exact ⟨a, by simp, hk⟩
        · exact .inr ⟨a, ha, hk⟩

/-- Every key that occurs is kept. -/
lemma exists_mem_distinctBy {a : α} {items : List α} (h : a ∈ items) :
    ∃ b ∈ distinctBy key items, key b = key a :=
  exists_mem_foldl_distinctBy items [] (.inr ⟨a, h, rfl⟩)

lemma mem_distinctBy_id {a : κ} {items : List κ} (h : a ∈ items) : a ∈ distinctBy id items := by
  obtain ⟨b, hb, rfl⟩ : ∃ b ∈ distinctBy id items, id b = id a := exists_mem_distinctBy h
  exact hb

lemma distinctBy_id_concat (items : List κ) (a : κ) : distinctBy id (items ++ [a]) =
    if a ∈ distinctBy id items then distinctBy id items else distinctBy id items ++ [a] := by
  rw [distinctBy, List.foldl_concat]
  simp [distinctBy]

/-- Without a key, the first of equal items is kept. -/
lemma distinctBy_id (items : List κ) : distinctBy id items = items.eraseDups := by
  induction items using List.reverseRecOn with
  | nil => rfl
  | append_singleton items a ih =>
      rw [distinctBy_id_concat, ih, List.eraseDups_append]
      by_cases ha : a ∈ items
      · simp [List.removeAll, ha]
      · simp [List.removeAll, ha, List.eraseDups_cons]

end DistinctBy

namespace Schema

variable (s : Schema)

/-! ## The children that are kept -/

/-- The children that the check of content goes on with. -/
def kept (s : Schema) : Residual → List ElementNode → List ElementNode
  | _, [] => []
  | r, child :: more =>
    let next := s.derivativeBy r child
    if next = .notAllowed then s.kept r more else child :: s.kept next more

lemma foldChildren_fst_eq (children : List ElementNode) (r : Residual) :
    (s.foldChildren r children).1 = (s.kept r children).foldl s.derivativeBy r := by
  induction children generalizing r with
  | nil => rfl
  | cons child more ih =>
      rw [foldChildren, kept]
      dsimp only
      split_ifs
      · exact ih r
      · exact ih (s.derivativeBy r child)

/-- The children that are kept are those that are not reported, as long as numbers tell children
apart. -/
lemma kept_eq_filter (children : List ElementNode) (r : Residual)
    (hnodup : (children.map ElementNode.id).Nodup) :
    s.kept r children
      = children.filter fun c => !(s.foldChildren r children).2.any (·.node == c.id) := by
  induction children generalizing r with
  | nil => rfl
  | cons child more ih =>
      rw [List.map_cons, List.nodup_cons] at hnodup
      obtain ⟨hnew, hnodup⟩ := hnodup
      rw [kept, foldChildren]
      dsimp only
      split_ifs
      · rw [ih r hnodup, List.filter_cons_of_neg (by simp)]
        refine List.filter_congr fun c hc => ?_
        have hne : child.id ≠ c.id := fun h => hnew (h ▸ List.mem_map_of_mem hc)
        simp [hne]
      · rw [ih _ hnodup, List.filter_cons_of_pos]
        rw [Bool.not_eq_true', List.any_eq_false]
        intro u hu hid
        obtain ⟨c, hc, huc⟩ := s.mem_foldChildren_unexpected more _ u hu
        exact hnew ((beq_iff_eq.mp hid) ▸ huc ▸ List.mem_map_of_mem hc)

/-- What the check is left with allows what completes the children that are kept. -/
lemma mem_allowed_foldChildren {w : List (String × String)} (children : List ElementNode)
    (r : Residual) (h : s.childrenFit r children = true) :
    w ∈ s.allowed (s.foldChildren r children).1 ↔
      (s.kept r children).map ElementNode.expandedName ++ w ∈ s.allowed r := by
  induction children generalizing r with
  | nil => exact Iff.rfl
  | cons child more ih =>
      simp only [childrenFit, Bool.and_eq_true] at h
      obtain ⟨hfit, hmore⟩ := h
      rw [foldChildren, kept]
      dsimp only
      by_cases hnext : s.derivativeBy r child = .notAllowed
      · simp only [hnext, if_true] at hmore ⊢
        exact ih r hmore
      · simp only [hnext, if_false] at hmore ⊢
        rw [ih _ hmore, s.allowed_derivativeBy child hfit]
        rfl

/-- The check only goes on with live residuals. -/
lemma live_foldChildren {P : Nat → Prop} (hparts : ∀ id, P id → ∀ m ∈ s.parts true id, P m)
    (children : List ElementNode) {r : Residual} (hr : r.Live P) :
    (s.foldChildren r children).1.Live P := by
  induction children generalizing r with
  | nil => exact hr
  | cons child more ih =>
      rw [foldChildren]
      dsimp only
      split_ifs with hnext
      · exact ih hr
      · have hsound : (s.derivativeBy r child).Sound P :=
          s.sound_derivativeWithin hparts _ _ _ (.inr hr)
        exact ih (hsound.live hnext)

/-! ## What is offered -/

/-- The children of an element that the check of its content does not report. -/
def acceptedChildren (s : Schema) (id : Nat) (children : List ElementNode) : List ElementNode :=
  children.filter fun c =>
    !((Declaration.pattern s id).checkContent children).unexpected.any (·.node == c.id)

/-- Whether neither checking the children of an element nor telling what must come next runs out of
depth. -/
def alternativesFit (s : Schema) (id : Nat) (children : List ElementNode) : Bool :=
  s.checkFits id children &&
    let r := (s.residualOf id children).1
    s.nullable r || s.requiredFirstFits (Residual.depthLimit + 1) r

section Offered

variable {id content : Nat} {children : List ElementNode}

lemma residualOf_eq (hc : s.elementContent? id = some content) :
    s.residualOf id children = s.foldChildren (.pattern content) children := by
  rw [residualOf, hc]

lemma incomplete_eq (hc : s.elementContent? id = some content) :
    ((Declaration.pattern s id).checkContent children).incomplete
      = !s.nullable (s.foldChildren (.pattern content) children).1 := by
  simp only [Declaration.checkContent, checkContent, s.residualOf_eq hc]

/-- An alternative is an element that must come next. -/
lemma mem_alternatives {p : Nat} (hc : s.elementContent? id = some content)
    (h : p ∈ s.alternatives id children) :
    s.nullable (s.foldChildren (.pattern content) children).1 = false ∧
      p ∈ s.requiredFirst (s.foldChildren (.pattern content) children).1 := by
  rw [alternatives] at h
  rw [s.residualOf_eq hc] at h
  dsimp only at h
  split_ifs at h with hnull
  · cases h
  · exact ⟨by simpa using hnull, (List.mem_filter.mp (mem_of_mem_distinctBy h)).1⟩

/-- An element with one name that must come next is offered under this name. -/
lemma exists_mem_alternatives {p : Nat} {m : String × String}
    (hc : s.elementContent? id = some content)
    (hnull : s.nullable (s.foldChildren (.pattern content) children).1 = false)
    (hp : p ∈ s.requiredFirst (s.foldChildren (.pattern content) children).1)
    (hm : s.simpleName? p = some m) :
    ∃ q ∈ s.alternatives id children, s.simpleName? q = some m := by
  have hmem : p ∈ (s.requiredFirst (s.foldChildren (.pattern content) children).1).filter
      fun p => ((s.elementName? p).bind NameClass.simple?).isSome :=
    List.mem_filter.mpr ⟨hp, by rw [← simpleName?, hm]; rfl⟩
  obtain ⟨q, hq, hkey⟩ : ∃ q ∈ distinctBy s.simpleName? _, s.simpleName? q = s.simpleName? p :=
    exists_mem_distinctBy hmem
  refine ⟨q, ?_, hkey.trans hm⟩
  rw [alternatives, s.residualOf_eq hc]
  dsimp only
  rw [hnull]
  exact hq

end Offered

/-- What it means for the alternatives that are offered to be right, for the children of an element
with the given pattern and content. -/
structure AlternativesExact (s : Schema) (id content : Nat) (children : List ElementNode) :
    Prop where
  /-- Alternatives are offered exactly for incomplete content. -/
  offered : (Declaration.pattern s id).alternatives children = [] ↔
    ((Declaration.pattern s id).checkContent children).incomplete = false
  /-- A child with the name of an alternative can follow the accepted children. -/
  follows : ∀ a ∈ (Declaration.pattern s id).alternatives children, ∀ c : ElementNode,
    a.describes c = true →
    (s.acceptedChildren id children ++ [c]).foldl s.derivativeBy (.pattern content) ≠ .notAllowed
  /-- The name of an alternative is among the expected ones. -/
  expected : ∀ a ∈ (Declaration.pattern s id).alternatives children,
    a.localName ∈ ((Declaration.pattern s id).checkContent children).expected
  /-- What completes incomplete content has a child with the name of an alternative. -/
  needed : ((Declaration.pattern s id).checkContent children).incomplete = true →
    ∀ more : List ElementNode,
      (s.acceptedChildren id children ++ more).map ElementNode.expandedName
        ∈ s.childNames content →
      ∃ c ∈ more, ∃ a ∈ (Declaration.pattern s id).alternatives children, a.describes c = true

/-! ## The offer is right -/

section Exact

variable {s} {source : SourceSchema} {id content : Nat} {children : List ElementNode}

/-- What a compiled schema is left with after children is live over its patterns. -/
lemma live_of_compile (compiled : source.compile = .ok s)
    (hc : s.elementContent? id = some content) :
    (s.foldChildren (.pattern content) children).1.Live (· < s.patterns.size) :=
  s.live_foldChildren (fun _ _ _ hm => lt_size_of_mem_parts compiled hm) children
    (content_lt_size compiled hc)

/-- An element that can come next has a label among those that are expected. -/
lemma label_mem_labels {p : Nat} {ids : List Nat} (hp : p ∈ ids) (hel : s.isElement p = true) :
    (Declaration.pattern s p).localName ∈ s.labels ids := by
  cases hname : s.elementName? p with
  | none =>
      rw [s.elementName?_eq_none_iff.mp hname] at hel
      cases hel
  | some c =>
      refine mem_distinctBy_id (List.mem_filterMap.mpr ⟨p, hp, ?_⟩)
      simp [Declaration.localName, hname]

/-- An element that must come next, of what a compiled schema is left with, can come next. -/
lemma derivativeBy_ne_notAllowed (compiled : source.compile = .ok s)
    (hc : s.elementContent? id = some content) {p : Nat}
    (hp : p ∈ s.requiredFirst (s.foldChildren (.pattern content) children).1) {c : ElementNode}
    (hadmits : s.admits p c.expandedName = true) :
    s.derivativeBy (s.foldChildren (.pattern content) children).1 c ≠ .notAllowed :=
  (s.derivativeWithin_ne_notAllowed_iff (fun _ _ _ hm => lt_size_of_mem_parts compiled hm)
    c.expandedName _ (.inr (live_of_compile compiled hc))).mpr
    ⟨p, s.mem_firstWithin_of_required _ hp, hadmits⟩

/-- If the depth suffices, words of what the check is left with have an alternative. -/
lemma exists_alternative_of_mem (hc : s.elementContent? id = some content)
    (named : ∀ p c, s.elementName? p = some c → c.simple?.isSome = true)
    (fits : s.alternativesFit id children = true)
    (hnull : s.nullable (s.foldChildren (.pattern content) children).1 = false)
    {w : List (String × String)}
    (hw : w ∈ s.allowed (s.foldChildren (.pattern content) children).1) :
    s.Hits (s.alternatives id children) w := by
  simp only [alternativesFit, s.residualOf_eq hc, hnull, Bool.false_or, Bool.and_eq_true] at fits
  obtain ⟨n, hn, p, hp, hadmits⟩ := s.required_hits _ _ hnull fits.2 w hw
  obtain ⟨c, hname, -⟩ := (Option.any_eq_true _ _).mp hadmits
  obtain ⟨m, hm⟩ := Option.isSome_iff_exists.mp (named p c hname)
  have hsimple : s.simpleName? p = some m := by simp [simpleName?, hname, hm]
  obtain ⟨q, hq, hqm⟩ := s.exists_mem_alternatives hc hnull hp hsimple
  refine ⟨n, hn, q, hq, (s.admits_iff_of_simpleName? hqm).mpr ?_⟩
  exact (s.admits_iff_of_simpleName? hsimple).mp hadmits

lemma acceptedChildren_eq (hc : s.elementContent? id = some content)
    (hnodup : (children.map ElementNode.id).Nodup) :
    s.acceptedChildren id children = s.kept (.pattern content) children := by
  rw [s.kept_eq_filter children _ hnodup]
  simp only [acceptedChildren, Declaration.checkContent, checkContent, s.residualOf_eq hc]

/-- What completes the children that are not reported is a word of what the check is left with. -/
lemma mem_allowed_of_completes (hc : s.elementContent? id = some content)
    (hnodup : (children.map ElementNode.id).Nodup) (fits : s.checkFits id children = true)
    {more : List ElementNode}
    (h : (s.acceptedChildren id children ++ more).map ElementNode.expandedName
      ∈ s.childNames content) :
    more.map ElementNode.expandedName
      ∈ s.allowed (s.foldChildren (.pattern content) children).1 := by
  rw [acceptedChildren_eq hc hnodup, List.map_append] at h
  exact (s.mem_allowed_foldChildren children _ (s.childrenFit_of_checkFits hc fits)).mpr h

/-- The result for all children that numbers tell apart. -/
lemma alternatives_exact_of_nodup (compiled : source.compile = .ok s)
    (named : ∀ p c, s.elementName? p = some c → c.simple?.isSome = true)
    (matched : ∀ p < s.patterns.size, ∃ w, w ∈ s.childNames p)
    (hc : s.elementContent? id = some content) (hnodup : (children.map ElementNode.id).Nodup)
    (fits : s.alternativesFit id children = true) : s.AlternativesExact id content children where
  offered := by
    rw [s.incomplete_eq hc, Bool.not_eq_false', Declaration.alternatives, List.map_eq_nil_iff,
      List.eq_nil_iff_forall_not_mem]
    constructor
    · intro hnone
      by_contra hnull
      rw [Bool.not_eq_true] at hnull
      obtain ⟨w, hw⟩ := s.exists_mem_allowed matched (live_of_compile compiled hc)
      obtain ⟨_, _, q, hq, _⟩ := exists_alternative_of_mem hc named fits hnull hw
      exact hnone q hq
    · intro hnull p hp
      rw [(s.mem_alternatives hc hp).1] at hnull
      cases hnull
  follows := by
    intro a ha c hac
    obtain ⟨p, hp, rfl⟩ := List.mem_map.mp ha
    rw [acceptedChildren_eq hc hnodup, List.foldl_append, ← s.foldChildren_fst_eq]
    exact derivativeBy_ne_notAllowed compiled hc (s.mem_alternatives hc hp).2 hac
  expected := by
    intro a ha
    obtain ⟨p, hp, rfl⟩ := List.mem_map.mp ha
    obtain ⟨hnull, hrequired⟩ := s.mem_alternatives hc hp
    have hfirst := s.mem_firstWithin_of_required _ hrequired
    simp only [Declaration.checkContent, checkContent, s.residualOf_eq hc, hnull, Bool.not_false,
      if_true]
    exact label_mem_labels hfirst (s.isElement_of_mem_firstWithin _ hfirst)
  needed := by
    intro hinc more hmore
    rw [s.incomplete_eq hc, Bool.not_eq_true'] at hinc
    have hw := mem_allowed_of_completes hc hnodup (Bool.and_eq_true_iff.mp fits).1 hmore
    obtain ⟨n, hn, q, hq, hadmits⟩ := exists_alternative_of_mem hc named fits hinc hw
    obtain ⟨c, hmem, rfl⟩ := List.mem_map.mp hn
    exact ⟨c, hmem, .pattern s q, List.mem_map_of_mem hq, hadmits⟩

/-- **The alternatives for incomplete content are exact**, in every compiled schema whose elements
have simple names and whose patterns can all be matched, for every element of a document, as long as
nothing runs out of depth. -/
theorem alternatives_exact (compiled : source.compile = .ok s)
    (named : ∀ p c, s.elementName? p = some c → c.simple?.isSome = true)
    (matched : ∀ p < s.patterns.size, ∃ w, w ∈ s.childNames p)
    (hc : s.elementContent? id = some content) (text : List Char) {e : ElementNode}
    (he : e ∈ (Tree.parse text).elements)
    (fits : s.alternativesFit id ((Tree.parse text).childElements e) = true) :
    s.AlternativesExact id content ((Tree.parse text).childElements e) :=
  alternatives_exact_of_nodup compiled named matched hc
    ((Tree.parse_shaped text).nodup_childElements (Tree.mem_elements.mp he)) fits

end Exact

/-- `sections`, as it is written. -/
def sectionSource : SourceSchema :=
  .grammar [.start none [.ref "section"],
    .define "section" none [.element (.name "" "section")
      [.interleave [.group [.element (.name "" "title") [.text] none, .zeroOrMore [.ref "section"]],
        .element (.name "" "note") [.text] none]] none]]

lemma compile_sectionSource : sectionSource.compile = .ok sections := by
  simp [sectionSource, sections, SourceSchema.compile, SchemaBuilder.addPart, SchemaBuilder.lower,
    SchemaBuilder.lowerAll, SchemaBuilder.lowerBody, SchemaBuilder.empty, SchemaBuilder.push,
    SchemaBuilder.group, SchemaBuilder.join, SchemaBuilder.definition, SchemaBuilder.finish]

/-- Children that a pattern of `sections` can be matched with. -/
def sectionExample (id : Nat) : List ElementNode :=
  if id = 2 ∨ id = 7 then [childNamed 1 "title"]
  else if id = 9 then [childNamed 1 "note"]
  else if id = 10 then [childNamed 1 "title", childNamed 2 "note"]
  else if id = 0 ∨ id = 3 ∨ id = 4 ∨ id = 11 then [childNamed 1 "section"]
  else []

lemma exists_mem_sections : ∀ id < sections.patterns.size, ∃ w, w ∈ sections.childNames id := by
  intro id hid
  have key : ∀ id < 12, sections.childrenFit (.pattern id) (sectionExample id) = true ∧
      (sections.foldChildren (.pattern id) (sectionExample id)).2 = [] ∧
      sections.nullable (sections.foldChildren (.pattern id) (sectionExample id)).1 = true := by
    decide +kernel
  obtain ⟨hfit, hvalid⟩ := key id hid
  exact ⟨_, (sections.foldChildren_valid_iff _ _ hfit).mp hvalid⟩

lemma named_sections (id : Nat) (c : NameClass) (h : sections.elementName? id = some c) :
    c.simple?.isSome = true := by
  have hid : id < 12 := by
    by_contra hid
    simp [elementName?, pattern, Array.getD, sections, hid] at h
  have key : ∀ id < 12, ∀ c ∈ sections.elementName? id, c.simple?.isSome = true := by decide
  exact key id hid c h

/-- A section with a note in it, but no title. -/
def untitledText : List Char :=
  "<section><note/></section>".toList

/-- The document element of `untitledText`. -/
def untitledSection : ElementNode :=
  ⟨0, none, ⟨0, 26⟩, ⟨⟨none, "section"⟩, none, [], [1], some 8, some 16, false⟩⟩

theorem alternatives_exact_sections :
    let children := (Tree.parse untitledText).childElements untitledSection
    sectionSource.compile = .ok sections ∧ untitledSection ∈ (Tree.parse untitledText).elements ∧
    sections.alternativesFit 11 children = true ∧ sections.AlternativesExact 11 10 children := by
  have helement : untitledSection ∈ (Tree.parse untitledText).elements := by decide +kernel
  have hfits : sections.alternativesFit 11
      ((Tree.parse untitledText).childElements untitledSection) = true := by decide +kernel
  exact ⟨compile_sectionSource, helement, hfits, alternatives_exact compile_sectionSource
    named_sections exists_mem_sections (by decide) untitledText helement hfits⟩

end Schema

end XmlAdvisor
