import XmlAdvisor.Proofs.Alternatives
import XmlAdvisor.Validation.Visit

/-!
# The declaration of a child that may stand where it does

The check of content knows at each child which element patterns can come there (`Schema.first`).
The declaration of the child is chosen without the place: it is the first element pattern of the
content model that has the child's name.  For a child that is not reported both agree on the name,
and they agree on the pattern unless a later pattern with the same name is the one that can come
there.

* `mem_elementPatterns_of_mem_first` — what can come next is an element pattern of the content
  model.
* `exists_first_admits` — a child that is not reported has the name of a pattern that can come
  there.
* **`child?_of_expected`** — which pattern such a child is declared by.
* `child?_not_first_twins` — two children of one name, of which the second is declared by the
  pattern for the first.
-/

namespace XmlAdvisor

namespace Schema

variable (s : Schema) {P : Nat → Prop}

/-! ## What can come next -/

/-- What is found in a sound residual has the property of its patterns. -/
lemma prop_of_mem_firstWithin (hparts : ∀ id, P id → ∀ m ∈ s.parts true id, P m) {p : Nat}
    (depth : Nat) {r : Residual} (hr : r.Sound P) (h : p ∈ s.firstWithin depth [] r) : P p := by
  induction depth generalizing r with
  | zero => cases h
  | succ depth ih =>
      rcases hr with rfl | hr
      · cases h
      cases r with
      | empty => cases h
      | notAllowed => cases h
      | pattern id =>
          rw [firstWithin] at h
          split_ifs at h
          · rcases mem_addOnce.mp h with h | rfl
            · cases h
            · exact hr
          · exact ih (s.sound_expand hr (hparts id hr)) h
      | choice a b =>
          exact ((s.mem_firstWithin depth _ b).mp h).elim (ih (.inr hr.1)) (ih (.inr hr.2))
      | interleave a b =>
          exact ((s.mem_firstWithin depth _ b).mp h).elim (ih (.inr hr.1)) (ih (.inr hr.2))
      | group a b =>
          rw [firstWithin] at h
          split_ifs at h
          · exact ((s.mem_firstWithin depth _ b).mp h).elim (ih (.inr hr.1)) (ih (.inr hr.2))
          · exact ih (.inr hr.1) h
      | oneOrMore a =>
          rw [firstWithin] at h
          exact ih (r := a) (.inr hr) h

section Content

variable {s} {id content : Nat} (hc : s.elementContent? id = some content)

/-- A part of what a content model leads to. -/
lemma leads_parts (q : Nat) (hq : s.Leads true content q) :
    ∀ m ∈ s.parts true q, s.Leads true content m :=
  fun _ hm => hq.tail hm

include hc

/-- What children leave of a content model is put together from its patterns. -/
lemma live_residualOf (children : List ElementNode) :
    (s.residualOf id children).1.Live (s.Leads true content) := by
  rw [s.residualOf_eq hc]
  exact s.live_foldChildren leads_parts children .refl

/-- What can come next is an element pattern of the content model. -/
lemma mem_elementPatterns_of_mem_first {children : List ElementNode} {p : Nat}
    (hp : p ∈ s.first (s.residualOf id children).1) : p ∈ s.elementPatterns content :=
  mem_elementPatterns_iff.mpr
    ⟨s.prop_of_mem_firstWithin leads_parts _ (.inr (live_residualOf hc children)) hp,
      s.isElement_of_mem_firstWithin _ hp⟩

end Content

/-! ## Children that are not reported -/

/-- A child that is not reported moves the content model on. -/
lemma derivativeBy_ne_of_expected (before : List ElementNode) {c : ElementNode}
    {after : List ElementNode} (r : Residual)
    (h : ∀ u ∈ (s.foldChildren r (before ++ c :: after)).2, u.node ≠ c.id) :
    s.derivativeBy (s.foldChildren r before).1 c ≠ .notAllowed := by
  induction before generalizing r with
  | nil =>
      intro hnone
      rw [List.nil_append, foldChildren] at h
      rw [foldChildren] at hnone
      simp only [hnone, if_true] at h
      exact h _ (List.mem_cons_self ..) rfl
  | cons child before ih =>
      rw [List.cons_append, foldChildren] at h
      rw [foldChildren]
      dsimp only at h ⊢
      split_ifs at h ⊢
      · exact ih r fun u hu => h u (List.mem_cons_of_mem _ hu)
      · exact ih _ h

section Content

variable {s} {id content : Nat} (hc : s.elementContent? id = some content)
include hc

/-- A child that is not reported has the name of a pattern that can come there. -/
lemma exists_first_admits (before : List ElementNode) {c : ElementNode} {after : List ElementNode}
    (h : ∀ u ∈ ((Declaration.pattern s id).checkContent (before ++ c :: after)).unexpected,
      u.node ≠ c.id) :
    ∃ q ∈ s.first (s.residualOf id before).1, s.admits q c.expandedName = true := by
  have hunexpected : ((Declaration.pattern s id).checkContent (before ++ c :: after)).unexpected =
      (s.foldChildren (.pattern content) (before ++ c :: after)).2 := by
    rw [Declaration.checkContent, checkContent, s.residualOf_eq hc]
  rw [hunexpected] at h
  have hnext := s.derivativeBy_ne_of_expected before _ h
  rw [← s.residualOf_eq hc] at hnext
  exact (s.derivativeWithin_ne_notAllowed_iff leads_parts c.expandedName _
    (.inr (live_residualOf hc before))).mp hnext

/-- The declaration of a child is the first element pattern with its name. -/
lemma child?_eq_find? (c : ElementNode) : (Declaration.pattern s id).child? c =
    ((s.elementPatterns content).find? (s.admits · c.expandedName)).map (.pattern s) := by
  rw [Declaration.child?, Declaration.children, hc]
  exact List.find?_map ..

/-- **A child that is not reported is declared by the first element pattern of the content model
with its name.**  The pattern can come where the child stands, unless one behind it with the same
name can. -/
theorem child?_of_expected (before : List ElementNode) (c : ElementNode) (after : List ElementNode)
    (h : ∀ u ∈ ((Declaration.pattern s id).checkContent (before ++ c :: after)).unexpected,
      u.node ≠ c.id) :
    ∃ earlier p later, s.elementPatterns content = earlier ++ p :: later ∧
      (∀ q ∈ earlier, s.admits q c.expandedName = false) ∧ s.admits p c.expandedName = true ∧
      (Declaration.pattern s id).child? c = some (.pattern s p) ∧
      (∀ (g : Grammar) (t : Tree),
        g.childDeclaration? t (.pattern s id) c = some (.pattern s p)) ∧
      (p ∈ s.first (s.residualOf id before).1 ∨
        ∃ q ∈ later, q ∈ s.first (s.residualOf id before).1 ∧
          s.admits q c.expandedName = true) := by
  obtain ⟨q, hq, hadmits⟩ := exists_first_admits hc before h
  have hmem := mem_elementPatterns_of_mem_first hc hq
  obtain ⟨p, hp⟩ : ∃ p, (s.elementPatterns content).find? (s.admits · c.expandedName) = some p :=
    Option.isSome_iff_exists.mp (List.find?_isSome.mpr ⟨q, hmem, hadmits⟩)
  have hchild : (Declaration.pattern s id).child? c = some (.pattern s p) := by
    rw [child?_eq_find? hc, hp]
    rfl
  obtain ⟨hpname, earlier, later, hsplit, hearlier⟩ := List.find?_eq_some_iff_append.mp hp
  have hnone : ∀ x ∈ earlier, s.admits x c.expandedName = false := fun x hx => by
    simpa using hearlier x hx
  refine ⟨earlier, p, later, hsplit, hnone, hpname, hchild, fun g t => ?_, ?_⟩
  · rw [Grammar.childDeclaration?, hchild]
    rfl
  · rw [hsplit] at hmem
    rcases List.mem_append.mp hmem with hbefore | hmem
    · rw [hnone q hbefore] at hadmits
      cases hadmits
    · rcases List.mem_cons.mp hmem with rfl | hbehind
      · exact .inl hq
      · exact .inr ⟨q, hbehind, hq, hadmits⟩

end Content

/-! ## Children of one name -/

/-- Two elements of one name, one after the other, that are told apart by their attributes. -/
def twinSource : SourceSchema :=
  .pattern (.element (.name "" "r")
    [.element (.name "" "a") [.attribute (.name "" "x") [] none none] none,
      .element (.name "" "a") [.attribute (.name "" "y") [] none none] none] none)

/-- The schema of `twinSource`. -/
def twins : Schema where
  patterns := #[.text, .attribute (.name "" "x") 0 none none, .element (.name "" "a") 1 none, .text,
    .attribute (.name "" "y") 3 none none, .element (.name "" "a") 4 none, .group [2, 5],
    .element (.name "" "r") 6 none]
  definitions := #[]
  start := 7

lemma compile_twinSource : twinSource.compile = .ok twins := by
  simp [twinSource, twins, SourceSchema.compile, SchemaBuilder.lower, SchemaBuilder.lowerAll,
    SchemaBuilder.lowerBody, SchemaBuilder.empty, SchemaBuilder.push, SchemaBuilder.group,
    SchemaBuilder.finish]

/-- A document with both elements, each with its attribute. -/
def twinText : List Char :=
  "<r><a x='1'/><a y='1'/></r>".toList

/-- The first of the two elements in `twinText`. -/
def firstTwin : ElementNode :=
  ⟨1, some 0, ⟨3, 13⟩, ⟨⟨none, "a"⟩, none, [⟨"x", "1", ⟨6, 7⟩, ⟨9, 10⟩⟩], [], some 12, none, true⟩⟩

/-- The second of the two elements in `twinText`. -/
def secondTwin : ElementNode :=
  ⟨2, some 0, ⟨13, 23⟩, ⟨⟨none, "a"⟩, none, [⟨"y", "1", ⟨16, 17⟩, ⟨19, 20⟩⟩], [], some 22,
    none, true⟩⟩

theorem child?_of_expected_twins :
    twins.elementContent? 7 = some 6 ∧
    (∀ u ∈ ((Declaration.pattern twins 7).checkContent
      ([firstTwin] ++ secondTwin :: [])).unexpected,
      u.node ≠ secondTwin.id) ∧
    ∃ earlier p later, twins.elementPatterns 6 = earlier ++ p :: later ∧
      (∀ q ∈ earlier, twins.admits q secondTwin.expandedName = false) ∧
      twins.admits p secondTwin.expandedName = true ∧
      (Declaration.pattern twins 7).child? secondTwin = some (.pattern twins p) ∧
      (∀ (g : Grammar) (t : Tree),
        g.childDeclaration? t (.pattern twins 7) secondTwin = some (.pattern twins p)) ∧
      (p ∈ twins.first (twins.residualOf 7 [firstTwin]).1 ∨
        ∃ q ∈ later, q ∈ twins.first (twins.residualOf 7 [firstTwin]).1 ∧
          twins.admits q secondTwin.expandedName = true) := by
  have hexpected : ∀ u ∈ ((Declaration.pattern twins 7).checkContent
      ([firstTwin] ++ secondTwin :: [])).unexpected, u.node ≠ secondTwin.id := by decide +kernel
  exact ⟨by decide, hexpected, child?_of_expected (by decide) [firstTwin] secondTwin [] hexpected⟩

/-- The second of two elements with one name is declared by the pattern for the first, which cannot
come there. -/
theorem child?_not_first_twins :
    twinSource.compile = .ok twins ∧
    (∃ root, (Tree.parse twinText).root? = some root ∧
      (Tree.parse twinText).childElements root = [firstTwin, secondTwin]) ∧
    ((Declaration.pattern twins 7).checkContent [firstTwin, secondTwin]).unexpected = [] ∧
    ∃ p, (Declaration.pattern twins 7).child? secondTwin = some (.pattern twins p) ∧
      p ∉ twins.first (twins.residualOf 7 [firstTwin]).1 := by
  have hroot : (Tree.parse twinText).root?.map (Tree.parse twinText).childElements =
      some [firstTwin, secondTwin] := by decide +kernel
  have hfound : (twins.elementPatterns 6).find? (twins.admits · secondTwin.expandedName) =
      some 2 := by
    decide +kernel
  refine ⟨compile_twinSource, ?_, by decide +kernel, 2, ?_, by decide +kernel⟩
  · obtain ⟨root, hroot, hchildren⟩ := Option.map_eq_some_iff.mp hroot
    exact ⟨root, hroot, hchildren⟩
  · rw [child?_eq_find? (by decide : twins.elementContent? 7 = some 6), hfound]
    rfl

end Schema

end XmlAdvisor
