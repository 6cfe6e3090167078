import XmlAdvisor.Proofs.ContentLanguage

/-!
# The content check decides the content language

Checking the children of an element goes from one residual to the next by derivatives.  Here each
residual is given the words it allows (`allowed`), and every step of the check is shown to be the
matching operation on words.

* `allowed_either`, `allowed_followedBy`, … — simplifying loses no word.
* `allowed_expand` — writing a pattern out one level loses none either, whatever the definitions.
* `nullableWithin_iff`, `allowed_derivativeWithin` — within the depth, the two questions about a
  residual are answered as its language says.
* **`checkContent_isValid_iff`** — content is valid exactly if the names of the children form a word
  of the content model.

**Depth.**  What lies deeper than the limit counts as allowing nothing, so the last three need that
nothing does.  `nullableFits` and `derivativeFits` follow the calls of the two recursions, and only
those that are made: they hold if none of the calls runs out of depth.
-/

namespace XmlAdvisor

open scoped Computability

namespace Schema

variable (s : Schema)

/-! ## The words that a residual allows -/

/-- The words over names that a residual allows. -/
def allowed : Residual → Language (String × String)
  | .empty => 1
  | .notAllowed => 0
  | .pattern id => s.childNames id
  | .choice a b => allowed a + allowed b
  | .group a b => allowed a * allowed b
  | .interleave a b => shuffle (allowed a) (allowed b)
  | .oneOrMore a => allowed a * (allowed a)∗

@[simp] lemma allowed_empty : s.allowed .empty = 1 := rfl

@[simp] lemma allowed_notAllowed : s.allowed .notAllowed = 0 := rfl

@[simp] lemma allowed_either (a b : Residual) :
    s.allowed (a.either b) = s.allowed a + s.allowed b := by
  unfold Residual.either
  split
  · simp
  · simp
  · split_ifs with h
    · subst h; exact (Language.add_self _).symm
    · rfl

@[simp] lemma allowed_followedBy (a b : Residual) :
    s.allowed (a.followedBy b) = s.allowed a * s.allowed b := by
  unfold Residual.followedBy
  split <;> simp [allowed]

@[simp] lemma allowed_mingledWith (a b : Residual) :
    s.allowed (a.mingledWith b) = shuffle (s.allowed a) (s.allowed b) := by
  unfold Residual.mingledWith
  split <;> simp [allowed]

@[simp] lemma allowed_repeated (a : Residual) :
    s.allowed a.repeated = s.allowed a * (s.allowed a)∗ := by
  unfold Residual.repeated
  split <;> simp [allowed]

/-! ## Writing a pattern out -/

lemma childNames_eq (id : Nat) :
    s.childNames id
      = s.contentStep (fun p => {w | ∃ n, s.admits p n = true ∧ w = [n]}) s.childNames id :=
  s.content_eq _ id

lemma allowed_foldl_either (ids : List Nat) (r : Residual) :
    s.allowed (ids.foldl (fun acc m => acc.either (.pattern m)) r)
      = s.allowed r + (ids.map s.childNames).sum := by
  induction ids generalizing r with
  | nil => simp
  | cons id ids ih =>
      rw [List.foldl_cons, ih, allowed_either, List.map_cons, List.sum_cons, add_assoc]
      rfl

lemma allowed_foldl_followedBy (ids : List Nat) (r : Residual) :
    s.allowed (ids.foldl (fun acc m => acc.followedBy (.pattern m)) r)
      = s.allowed r * (ids.map s.childNames).prod := by
  induction ids generalizing r with
  | nil => simp
  | cons id ids ih =>
      rw [List.foldl_cons, ih, allowed_followedBy, List.map_cons, List.prod_cons, mul_assoc]
      rfl

lemma allowed_foldl_mingledWith (ids : List Nat) (r : Residual) :
    s.allowed (ids.foldl (fun acc m => acc.mingledWith (.pattern m)) r)
      = (ids.map s.childNames).foldl shuffle (s.allowed r) := by
  induction ids generalizing r with
  | nil => rfl
  | cons id ids ih =>
      rw [List.foldl_cons, ih, allowed_mingledWith, List.map_cons, List.foldl_cons]
      rfl

/-- A pattern written out one level allows what the pattern allows. -/
lemma allowed_expand (id : Nat) : s.allowed (s.expand id) = s.childNames id := by
  have h := s.childNames_eq id
  unfold contentStep at h
  rw [expand]
  cases hp : s.pattern id with
  | element name content documentation => rfl
  | choice members => simp [h, hp, allowed_foldl_either]
  | group members => simp [h, hp, allowed_foldl_followedBy]
  | interleave members => simp [h, hp, allowed_foldl_mingledWith]
  | oneOrMore body => simp [h, hp, allowed]
  | ref d =>
      rw [h, hp]
      dsimp only
      cases s.body? d with
      | none => rfl
      | some body => rfl
  | _ => simp [h, hp]

/-- An element pattern allows one child with any one name of its class. -/
lemma mem_childNames_element {id : Nat} (h : s.isElement id = true) {w : List (String × String)} :
    w ∈ s.childNames id ↔ ∃ n, s.admits id n = true ∧ w = [n] := by
  rw [childNames_eq]
  unfold contentStep
  rw [isElement] at h
  split at h
  · rename_i hp
    rw [hp]
    rfl
  · cases h

lemma cons_mem_childNames_element {id : Nat} (h : s.isElement id = true) {n : String × String}
    {w : List (String × String)} :
    n :: w ∈ s.childNames id ↔ s.admits id n = true ∧ w = [] := by
  rw [mem_childNames_element s h]
  constructor
  · rintro ⟨m, hm, hw⟩
    obtain ⟨rfl, rfl⟩ := List.cons.inj hw
    exact ⟨hm, rfl⟩
  · rintro ⟨hn, rfl⟩
    exact ⟨n, hn, rfl⟩

/-! ## Depth -/

/-- Whether asking if a residual allows no children never runs out of depth. -/
def nullableFits (s : Schema) : (depth : Nat) → Residual → Bool
  | 0, _ => false
  | depth + 1, r =>
    match r with
    | .empty | .notAllowed => true
    | .pattern id => s.isElement id || s.nullableFits depth (s.expand id)
    | .choice a b =>
      s.nullableFits depth a && (s.nullableWithin depth a || s.nullableFits depth b)
    | .group a b | .interleave a b =>
      s.nullableFits depth a && (!s.nullableWithin depth a || s.nullableFits depth b)
    | .oneOrMore a => s.nullableFits depth a

/-- Whether taking a derivative never runs out of depth.  The elements that may come next are
collected by the same calls. -/
def derivativeFits (s : Schema) : (depth : Nat) → Residual → Bool
  | 0, _ => false
  | depth + 1, r =>
    match r with
    | .empty | .notAllowed => true
    | .pattern id => s.isElement id || s.derivativeFits depth (s.expand id)
    | .choice a b | .interleave a b => s.derivativeFits depth a && s.derivativeFits depth b
    | .group a b =>
      s.derivativeFits depth a && s.nullableFits depth a &&
        (!s.nullableWithin depth a || s.derivativeFits depth b)
    | .oneOrMore a => s.derivativeFits depth a

/-! ## The two questions -/

/-- Within the depth, a residual is nullable exactly if it allows the empty word. -/
theorem nullableWithin_iff (depth : Nat) (r : Residual) (h : s.nullableFits depth r = true) :
    s.nullableWithin depth r = true ↔ [] ∈ s.allowed r := by
  induction depth generalizing r with
  | zero => simp [nullableFits] at h
  | succ depth ih =>
      cases r with
      | empty => simp [nullableWithin, Language.mem_one]
      | notAllowed => simp [nullableWithin]
      | pattern id =>
          by_cases he : s.isElement id = true
          · simp [nullableWithin, he, allowed, mem_childNames_element]
          · simp only [nullableFits, he, Bool.false_or] at h
            simp only [nullableWithin, he, Bool.false_eq_true, if_false]
            rw [ih _ h, allowed_expand]
            rfl
      | choice a b =>
          simp only [nullableFits, Bool.and_eq_true, Bool.or_eq_true] at h
          simp only [nullableWithin, Bool.or_eq_true, allowed, Language.mem_add]
          obtain ⟨ha, hb⟩ := h
          rcases hb with hna | hb
          · simp only [hna, true_or, (ih a ha).mp hna]
          · rw [ih a ha, ih b hb]
      | group a b =>
          simp only [nullableFits, Bool.and_eq_true, Bool.or_eq_true, Bool.not_eq_true'] at h
          simp only [nullableWithin, Bool.and_eq_true, allowed, nil_mem_mul]
          obtain ⟨ha, hb⟩ := h
          rcases hb with hna | hb
          · simp [← ih a ha, hna]
          · rw [ih a ha, ih b hb]
      | interleave a b =>
          simp only [nullableFits, Bool.and_eq_true, Bool.or_eq_true, Bool.not_eq_true'] at h
          simp only [nullableWithin, Bool.and_eq_true, allowed, nil_mem_shuffle]
          obtain ⟨ha, hb⟩ := h
          rcases hb with hna | hb
          · simp [← ih a ha, hna]
          · rw [ih a ha, ih b hb]
      | oneOrMore a =>
          simp only [nullableFits] at h
          simp only [nullableWithin, allowed, nil_mem_mul, ih a h, Language.nil_mem_kstar, and_true]

lemma elementName?_eq_none_iff {id : Nat} : s.elementName? id = none ↔ s.isElement id = false := by
  rw [elementName?, isElement]
  cases s.pattern id <;> simp

lemma isElement_of_elementName? {id : Nat} {c : NameClass} (h : s.elementName? id = some c) :
    s.isElement id = true := by
  rw [← Bool.not_eq_false, ← s.elementName?_eq_none_iff, h]
  simp

lemma exists_elementContent? {id : Nat} (h : s.isElement id = true) :
    ∃ content, s.elementContent? id = some content := by
  rw [isElement] at h
  rw [elementContent?]
  split at h
  · exact ⟨_, rfl⟩
  · cases h

/-- Within the depth, the derivative allows what can follow the name. -/
theorem allowed_derivativeWithin (n : String × String) (depth : Nat) (r : Residual)
    (h : s.derivativeFits depth r = true) :
    s.allowed (s.derivativeWithin n.1 n.2 depth r) = (s.allowed r).leftQuotient [n] := by
  induction depth generalizing r with
  | zero => simp [derivativeFits] at h
  | succ depth ih =>
      ext w
      rw [Language.mem_leftQuotient, List.singleton_append]
      cases r with
      | empty => simp [derivativeWithin, Language.mem_one]
      | notAllowed => simp [derivativeWithin]
      | pattern id =>
          rw [derivativeWithin]
          cases hname : s.elementName? id with
          | some c =>
              rw [allowed, cons_mem_childNames_element s (s.isElement_of_elementName? hname)]
              by_cases hc : c.contains n.1 n.2 = true
              · simp [hc, admits, hname, Language.mem_one]
              · simp [hc, admits, hname]
          | none =>
              rw [elementName?_eq_none_iff] at hname
              simp only [derivativeFits, hname, Bool.false_or] at h
              dsimp only
              rw [ih _ h, allowed_expand, Language.mem_leftQuotient]
              rfl
      | choice a b =>
          simp only [derivativeFits, Bool.and_eq_true] at h
          simp only [derivativeWithin, allowed_either, Language.mem_add, ih a h.1, ih b h.2,
            allowed, Language.mem_leftQuotient, List.singleton_append]
      | group a b =>
          simp only [derivativeFits, Bool.and_eq_true, Bool.or_eq_true, Bool.not_eq_true'] at h
          obtain ⟨⟨ha, hna⟩, hb⟩ := h
          have hnull := s.nullableWithin_iff depth a hna
          rw [allowed, cons_mem_mul, ← hnull]
          by_cases hn : s.nullableWithin depth a = true
          · have hb : s.derivativeFits depth b = true := by simpa [hn] using hb
            simp only [derivativeWithin, hn, if_true, allowed_either, allowed_followedBy,
              Language.mem_add, ih a ha, ih b hb, true_and, Language.mem_leftQuotient,
              List.singleton_append]
          · simp [derivativeWithin, hn, ih a ha]
      | interleave a b =>
          simp only [derivativeFits, Bool.and_eq_true] at h
          simp only [derivativeWithin, allowed_either, allowed_mingledWith, Language.mem_add,
            ih a h.1, ih b h.2, allowed, cons_mem_shuffle]
      | oneOrMore a =>
          simp only [derivativeFits] at h
          have hrest : s.allowed ((Residual.oneOrMore a).either .empty) = (s.allowed a)∗ := by
            rw [allowed_either, allowed_empty, add_comm]
            exact Language.one_add_self_mul_kstar_eq_kstar _
          simp only [derivativeWithin, allowed_followedBy, hrest, ih a h, allowed,
            cons_mem_mul_kstar]

/-! ## Checking children -/

/-- Whether the check of children never runs out of depth, from a residual on. -/
def childrenFit (s : Schema) : Residual → List ElementNode → Bool
  | r, [] => s.nullableFits (Residual.depthLimit + 1) r
  | r, child :: more =>
    s.derivativeFits (Residual.depthLimit + 1) r &&
      let next := s.derivativeBy r child
      if next = .notAllowed then s.childrenFit r more else s.childrenFit next more

/-- Whether the check of the children of an element never runs out of depth. -/
def checkFits (s : Schema) (id : Nat) (children : List ElementNode) : Bool :=
  (s.elementContent? id).all fun content => s.childrenFit (.pattern content) children

lemma allowed_derivativeBy {r : Residual} (child : ElementNode)
    (h : s.derivativeFits (Residual.depthLimit + 1) r = true) :
    s.allowed (s.derivativeBy r child) = (s.allowed r).leftQuotient [child.expandedName] :=
  s.allowed_derivativeWithin child.expandedName _ r h

/-- Only children are reported as unexpected. -/
lemma mem_foldChildren_unexpected (children : List ElementNode) (r : Residual) :
    ∀ u ∈ (s.foldChildren r children).2, ∃ c ∈ children, u.node = c.id := by
  induction children generalizing r with
  | nil =>
      intro u hu
      cases hu
  | cons child more ih =>
      intro u hu
      simp only [foldChildren] at hu
      split_ifs at hu
      · rcases List.mem_cons.mp hu with rfl | hu
        · exact ⟨child, by simp, rfl⟩
        · obtain ⟨c, hc, huc⟩ := ih r u hu
          exact ⟨c, by simp [hc], huc⟩
      · obtain ⟨c, hc, huc⟩ := ih _ u hu
        exact ⟨c, by simp [hc], huc⟩

/-- Nothing is reported and nothing is missing exactly if the names are a word of the residual. -/
lemma foldChildren_valid_iff (children : List ElementNode) (r : Residual)
    (h : s.childrenFit r children = true) :
    (s.foldChildren r children).2 = [] ∧ s.nullable (s.foldChildren r children).1 = true ↔
      children.map ElementNode.expandedName ∈ s.allowed r := by
  induction children generalizing r with
  | nil =>
      simp only [childrenFit] at h
      simp [foldChildren, nullable, nullableWithin_iff s _ r h]
  | cons child more ih =>
      simp only [childrenFit, Bool.and_eq_true] at h
      obtain ⟨hfit, hmore⟩ := h
      have hstep : (child :: more).map ElementNode.expandedName ∈ s.allowed r
          ↔ more.map ElementNode.expandedName ∈ s.allowed (s.derivativeBy r child) := by
        rw [s.allowed_derivativeBy child hfit]
        rfl
      rw [hstep, foldChildren]
      by_cases hnext : s.derivativeBy r child = .notAllowed
      · simp [hnext]
      · simp only [hnext, if_false] at hmore ⊢
        exact ih _ hmore

/-- Content is valid if the fold over the children reports none and ends in a nullable residual. -/
lemma isValid_checkContent {id content : Nat} (hc : s.elementContent? id = some content)
    (children : List ElementNode) :
    ((Declaration.pattern s id).checkContent children).isValid = true ↔
      (s.foldChildren (.pattern content) children).2 = [] ∧
        s.nullable (s.foldChildren (.pattern content) children).1 = true := by
  simp [Declaration.checkContent, checkContent, residualOf, hc, ContentCheck.isValid]

lemma childrenFit_of_checkFits {id content : Nat} (hc : s.elementContent? id = some content)
    {children : List ElementNode} (fits : s.checkFits id children = true) :
    s.childrenFit (.pattern content) children = true := by
  simpa [checkFits, hc] using fits

/-- **The content check decides the content language.**  As long as the check does not run out of
depth, content is valid exactly if the names of the children form a word of the content model. -/
theorem checkContent_isValid_iff {id content : Nat} (hc : s.elementContent? id = some content)
    (children : List ElementNode) (fits : s.checkFits id children = true) :
    ((Declaration.pattern s id).checkContent children).isValid = true ↔
      children.map ElementNode.expandedName ∈ s.childNames content := by
  rw [s.isValid_checkContent hc]
  exact s.foldChildren_valid_iff children (.pattern content) (s.childrenFit_of_checkFits hc fits)

/-- Sections that have a title with any sections after it, and a note anywhere between. -/
def sections : Schema where
  patterns := #[.ref 0, .text, .element (.name "" "title") 1 none, .ref 0, .oneOrMore 3, .empty,
    .choice [4, 5], .group [2, 6], .text, .element (.name "" "note") 8 none, .interleave [7, 9],
    .element (.name "" "section") 10 none]
  definitions := #[⟨"section", some 11⟩]
  start := 0

/-- A child of the given name, in no namespace and without attributes and children. -/
def childNamed (id : Nat) (name : String) : ElementNode :=
  ⟨id, none, ⟨0, 0⟩, ⟨⟨none, name⟩, none, [], [], none, none, false⟩⟩

/-- A note between the title and the sections after it. -/
theorem checkContent_isValid_sections :
    let children := [childNamed 1 "title", childNamed 2 "note", childNamed 3 "section"]
    sections.elementContent? 11 = some 10 ∧ sections.checkFits 11 children = true ∧
      (((Declaration.pattern sections 11).checkContent children).isValid = true ↔
        children.map ElementNode.expandedName ∈ sections.childNames 10) :=
  ⟨by decide, by decide, sections.checkContent_isValid_iff (by decide) _ (by decide)⟩

end Schema

end XmlAdvisor
