import XmlAdvisor.Proofs.Alternatives

/-!
# The reported children are those that cannot stand there

The content check leaves a child out when nothing is left of the content model behind it, and goes
on with what was left before.  This module says what that means for words of the content model.

* `childrenFit_append`, `mem_allowed_next` — the part of a check up to a child, and what it leaves.
* `foldChildren_kept` — checking the children that are kept reports none of them and ends as before.
* `reports_iff` — a child is reported exactly if nothing is left behind it.
* `ReportsExact` — what it means for the reports to be right.
* **`reports_exact`** — they are right for every element of a document, in every compiled schema.
-/

namespace XmlAdvisor

namespace Schema

variable (s : Schema)

/-! ## The check up to a child -/

lemma foldChildren_append (before after : List ElementNode) (r : Residual) :
    s.foldChildren r (before ++ after) =
      ((s.foldChildren (s.foldChildren r before).1 after).1,
        (s.foldChildren r before).2 ++ (s.foldChildren (s.foldChildren r before).1 after).2) := by
  induction before generalizing r with
  | nil => rfl
  | cons child before ih =>
      rw [List.cons_append, foldChildren, foldChildren]
      dsimp only
      split_ifs <;> simp [ih]

/-- A check that does not run out of depth does not do so from a child on. -/
lemma childrenFit_append {before after : List ElementNode} {r : Residual}
    (h : s.childrenFit r (before ++ after) = true) :
    s.childrenFit (s.foldChildren r before).1 after = true := by
  induction before generalizing r with
  | nil => exact h
  | cons child before ih =>
      rw [List.cons_append, childrenFit, Bool.and_eq_true] at h
      rw [foldChildren]
      have hmore := h.2
      dsimp only at hmore ⊢
      split_ifs at hmore ⊢ with hnext
      · exact ih hmore
      · exact ih hmore

/-- The residual at a child allows what completes the children that are kept before it. -/
lemma mem_allowed_before {before after : List ElementNode} {child : ElementNode} {r : Residual}
    (h : s.childrenFit r (before ++ child :: after) = true) (w : List (String × String)) :
    w ∈ s.allowed (s.foldChildren r before).1 ↔
      (s.kept r before).map ElementNode.expandedName ++ w ∈ s.allowed r := by
  induction before generalizing r with
  | nil => exact Iff.rfl
  | cons first before ih =>
      rw [List.cons_append, childrenFit, Bool.and_eq_true] at h
      obtain ⟨hfit, hmore⟩ := h
      rw [foldChildren, kept]
      dsimp only at hmore ⊢
      by_cases hnext : s.derivativeBy r first = .notAllowed
      · simp only [hnext, if_true] at hmore ⊢
        exact ih hmore
      · simp only [hnext, if_false] at hmore ⊢
        rw [ih hmore, s.allowed_derivativeBy first hfit]
        rfl

/-- What is left behind a child allows what completes the kept children and the child. -/
lemma mem_allowed_next {before after : List ElementNode} {child : ElementNode} {r : Residual}
    (h : s.childrenFit r (before ++ child :: after) = true) (w : List (String × String)) :
    w ∈ s.allowed (s.derivativeBy (s.foldChildren r before).1 child) ↔
      (s.kept r before ++ [child]).map ElementNode.expandedName ++ w ∈ s.allowed r := by
  have hfit := s.childrenFit_append h
  rw [childrenFit, Bool.and_eq_true] at hfit
  rw [s.allowed_derivativeBy child hfit.1, Language.mem_leftQuotient, s.mem_allowed_before h]
  simp

/-! ## The check of the kept children -/

lemma foldChildren_kept (children : List ElementNode) (r : Residual) :
    s.foldChildren r (s.kept r children) = ((s.foldChildren r children).1, []) := by
  induction children generalizing r with
  | nil => rfl
  | cons child more ih =>
      rw [kept, foldChildren]
      dsimp only
      split_ifs with hnext
      · exact ih r
      · rw [foldChildren]
        dsimp only
        rw [if_neg hnext]
        exact ih (s.derivativeBy r child)

/-! ## Reports -/

/-- Whether the content check of an element reports a child. -/
def reports (s : Schema) (id : Nat) (children : List ElementNode) (child : ElementNode) : Bool :=
  ((Declaration.pattern s id).checkContent children).unexpected.any (·.node == child.id)

/-- What it means for the reports about the children of an element with the given pattern and
content to be right. -/
structure ReportsExact (s : Schema) (id content : Nat) (children : List ElementNode) : Prop where
  /-- No word goes on with a reported child behind the accepted children before it. -/
  reported : ∀ before child after, children = before ++ child :: after →
    s.reports id children child = true → ∀ w,
      (before.filter (!s.reports id children ·) ++ [child]).map ElementNode.expandedName ++ w
        ∉ s.childNames content
  /-- If all patterns can be matched, some word goes on with each other child. -/
  accepted : (∀ p < s.patterns.size, ∃ w, w ∈ s.childNames p) →
    ∀ before child after, children = before ++ child :: after →
    s.reports id children child = false → ∃ w,
      (before.filter (!s.reports id children ·) ++ [child]).map ElementNode.expandedName ++ w
        ∈ s.childNames content
  /-- Content is incomplete exactly if the accepted children are not a word. -/
  incomplete : ((Declaration.pattern s id).checkContent children).incomplete = true ↔
    (s.acceptedChildren id children).map ElementNode.expandedName ∉ s.childNames content
  /-- Without the reported children, the check reports none and tells the rest as before. -/
  again : (Declaration.pattern s id).checkContent (s.acceptedChildren id children) =
    { (Declaration.pattern s id).checkContent children with unexpected := [] }

section Exact

variable {s} {source : SourceSchema} {id content : Nat} {children : List ElementNode}

lemma reports_eq (hc : s.elementContent? id = some content) (child : ElementNode) :
    s.reports id children child =
      (s.foldChildren (.pattern content) children).2.any (·.node == child.id) := by
  simp only [reports, Declaration.checkContent, checkContent, s.residualOf_eq hc]

section Divided

variable {before after : List ElementNode} {child : ElementNode}

/-- A child that stands elsewhere is not reported for another one. -/
lemma any_unexpected_eq_false {others : List ElementNode} (r : Residual)
    (hother : child.id ∉ others.map ElementNode.id) :
    (s.foldChildren r others).2.any (·.node == child.id) = false := by
  rw [List.any_eq_false]
  intro u hu hid
  obtain ⟨c, hc, huc⟩ := s.mem_foldChildren_unexpected others r u hu
  exact hother (beq_iff_eq.mp hid ▸ huc ▸ List.mem_map_of_mem hc)

/-- A child is reported exactly if nothing is left behind it. -/
lemma reports_iff (hc : s.elementContent? id = some content)
    (hnodup : ((before ++ child :: after).map ElementNode.id).Nodup) :
    s.reports id (before ++ child :: after) child = true ↔
      s.derivativeBy (s.foldChildren (.pattern content) before).1 child = .notAllowed := by
  rw [List.map_append, List.map_cons, List.nodup_middle, List.nodup_cons, List.mem_append,
    not_or] at hnodup
  obtain ⟨⟨hbefore, hafter⟩, -⟩ := hnodup
  rw [reports_eq hc, foldChildren_append, List.any_append, any_unexpected_eq_false _ hbefore,
    Bool.false_or, foldChildren]
  dsimp only
  split_ifs with hnext
  · simp [hnext]
  · simp [hnext, any_unexpected_eq_false _ hafter]

/-- The accepted children before a child are those that the check goes on with. -/
lemma filter_before_eq (hc : s.elementContent? id = some content)
    (hnodup : ((before ++ after).map ElementNode.id).Nodup) :
    before.filter (!s.reports id (before ++ after) ·) = s.kept (.pattern content) before := by
  rw [List.map_append, List.nodup_append'] at hnodup
  obtain ⟨hbefore, -, hdisjoint⟩ := hnodup
  rw [s.kept_eq_filter before _ hbefore]
  refine List.filter_congr fun c hmem => ?_
  rw [reports_eq hc, foldChildren_append, List.any_append,
    any_unexpected_eq_false _ (hdisjoint (List.mem_map_of_mem hmem)), Bool.or_false]

/-- What is left behind a child tells the words that go on with it. -/
lemma mem_allowed_next_iff (hc : s.elementContent? id = some content)
    (hnodup : ((before ++ child :: after).map ElementNode.id).Nodup)
    (fits : s.checkFits id (before ++ child :: after) = true) (w : List (String × String)) :
    w ∈ s.allowed (s.derivativeBy (s.foldChildren (.pattern content) before).1 child) ↔
      (before.filter (!s.reports id (before ++ child :: after) ·) ++ [child]).map
        ElementNode.expandedName ++ w ∈ s.childNames content := by
  rw [filter_before_eq hc hnodup, s.mem_allowed_next (s.childrenFit_of_checkFits hc fits)]
  rfl

end Divided

/-- What is left behind a child that is accepted is live. -/
lemma live_next (compiled : source.compile = .ok s) (hc : s.elementContent? id = some content)
    {before : List ElementNode} {child : ElementNode}
    (hnext : s.derivativeBy (s.foldChildren (.pattern content) before).1 child ≠ .notAllowed) :
    (s.derivativeBy (s.foldChildren (.pattern content) before).1 child).Live
      (· < s.patterns.size) :=
  (s.sound_derivativeWithin (fun _ _ _ hm => lt_size_of_mem_parts compiled hm) _ _ _
    (.inr (live_of_compile compiled hc))).live hnext

/-- The result for all children that numbers tell apart. -/
lemma reports_exact_of_nodup (compiled : source.compile = .ok s)
    (hc : s.elementContent? id = some content) (hnodup : (children.map ElementNode.id).Nodup)
    (fits : s.checkFits id children = true) : s.ReportsExact id content children where
  reported := by
    rintro before child after rfl hreported w hw
    rw [← mem_allowed_next_iff hc hnodup fits, (reports_iff hc hnodup).mp hreported] at hw
    exact hw
  accepted := by
    rintro matched before child after rfl hreported
    have hnext : s.derivativeBy (s.foldChildren (.pattern content) before).1 child ≠
        .notAllowed := by
      rw [ne_eq, ← reports_iff hc hnodup, hreported]
      exact Bool.false_ne_true
    obtain ⟨w, hw⟩ := s.exists_mem_allowed matched (live_next compiled hc hnext)
    exact ⟨w, (mem_allowed_next_iff hc hnodup fits w).mp hw⟩
  incomplete := by
    have hfit := s.childrenFit_of_checkFits hc fits
    have hwords := s.mem_allowed_foldChildren children _ hfit (w := [])
    rw [← List.append_nil children] at hfit
    have hnull := s.nullableWithin_iff _ _ (s.childrenFit_append hfit)
    rw [s.incomplete_eq hc, acceptedChildren_eq hc hnodup, Bool.not_eq_true', ← Bool.not_eq_true,
      not_iff_not]
    rw [List.append_nil] at hwords
    exact hnull.trans hwords
  again := by
    have hkept := s.foldChildren_kept children (.pattern content)
    simp only [Declaration.checkContent, checkContent, s.residualOf_eq hc,
      acceptedChildren_eq hc hnodup, hkept]

/-- **The reported children are exactly those that cannot stand there**, in every compiled schema,
for every element of a document, as long as the check does not run out of depth. -/
theorem reports_exact (compiled : source.compile = .ok s)
    (hc : s.elementContent? id = some content) (text : List Char) {e : ElementNode}
    (he : e ∈ (Tree.parse text).elements)
    (fits : s.checkFits id ((Tree.parse text).childElements e) = true) :
    s.ReportsExact id content ((Tree.parse text).childElements e) :=
  reports_exact_of_nodup compiled hc
    ((Tree.parse_shaped text).nodup_childElements (Tree.mem_elements.mp he)) fits

end Exact

/-- A section with two notes, of which the second cannot stand there, and no title. -/
def notedTwiceText : List Char :=
  "<section><note/><note/></section>".toList

/-- The document element of `notedTwiceText`. -/
def notedTwice : ElementNode :=
  ⟨0, none, ⟨0, 33⟩, ⟨⟨none, "section"⟩, none, [], [1, 2], some 8, some 23, false⟩⟩

theorem reports_exact_sections :
    let children := (Tree.parse notedTwiceText).childElements notedTwice
    sectionSource.compile = .ok sections ∧ notedTwice ∈ (Tree.parse notedTwiceText).elements ∧
    sections.checkFits 11 children = true ∧
    children.map (sections.reports 11 children) = [false, true] ∧
    sections.ReportsExact 11 10 children := by
  have helement : notedTwice ∈ (Tree.parse notedTwiceText).elements := by decide +kernel
  have hfits : sections.checkFits 11
      ((Tree.parse notedTwiceText).childElements notedTwice) = true := by decide +kernel
  exact ⟨compile_sectionSource, helement, hfits, by decide +kernel,
    reports_exact compile_sectionSource (by decide) notedTwiceText helement hfits⟩

end Schema

end XmlAdvisor
