import XmlAdvisor.Proofs.ChildDeclarations
import XmlAdvisor.Proofs.GeneratedElements
import XmlAdvisor.Proofs.SoleAlternatives
import XmlAdvisor.Proofs.TreeLanguage
import XmlAdvisor.Proofs.UnfoldedContent

/-!
# Whether what is generated is complete

What is generated for a declaration has the children that are required, so it should be valid.  A
child is generated once, however often the content asks for it, and that alone decides.

* `Schema.HasContent` — what the content of an element pattern is unfolded to; `Schema.Nests` — the
  same of the elements in it, down to a number of levels.
* `Schema.TellsApart` — elements have one name each, and those of one name have the same content.
* `Schema.HasContent.valid_iff` — the content of one element is valid exactly if each element in it
  is asked for once.
* **`Schema.Nests.valid_visitsFrom_iff`** — the same of all elements from one down.
* **`Schema.valid_insertion_iff`** — the text that is generated for a declaration is read as an
  element that is valid throughout exactly if no content asks for one element twice.
-/

namespace XmlAdvisor

/-- The name of an element that has no qualifier and is in no namespace. -/
lemma Tree.IsBare.expandedName {t : Tree} (h : t.IsBare) {i : Nat} {e : ElementNode}
    (he : t.element? i = some e) : e.expandedName = ("", e.element.tagName) := by
  obtain ⟨huri, hqualifier⟩ := h i e he
  rw [ElementNode.expandedName, huri, Element.tagName, QualifiedName.text_of_none hqualifier]
  rfl

/-- An element that is what is asked for has a tag that is. -/
lemma Tree.Realizes.heads {t : Tree} {levels : Nat} {d : Declaration} {e : ElementNode}
    (h : t.Realizes levels d e) : d.Heads e := by
  cases levels with
  | zero => exact h.1
  | succ levels => exact h.1

namespace Schema

/-! ## Contents -/

/-- Whether the content of an element pattern is unfolded to some elements. -/
def HasContent (s : Schema) (id : Nat) (ids : List Nat) : Prop :=
  ∃ content, s.elementContent? id = some content ∧ s.Unfolds [content] ids

/-- Whether the content of an element pattern is unfolded, and that of the elements in it, down to a
number of levels of children, and all these contents are of some sort. -/
def Nests (s : Schema) (ok : List Nat → Prop) : (levels : Nat) → (id : Nat) → Prop
  | 0, id => s.HasContent id [] ∧ ok []
  | levels + 1, id => ∃ ids, s.HasContent id ids ∧ ok ids ∧ ∀ p ∈ ids, s.Nests ok levels p

/-- Whether two element patterns have the same content. -/
def SameContent (s : Schema) (p q : Nat) : Prop :=
  ∀ ids, s.HasContent p ids ↔ s.HasContent q ids

/-- Whether elements have one name each, which is in no namespace and tells their contents apart:
those of one name have the same content.  A child is validated as the first element of its name in
the content, whichever it was generated for; so where two of one name have different contents, the
child that is generated for the second one is checked for the content of the first. -/
structure TellsApart (s : Schema) (ids : List Nat) : Prop where
  named : ∀ p ∈ ids, ∃ localName, s.simpleName? p = some ("", localName)
  apart : ∀ p ∈ ids, ∀ q ∈ ids, s.simpleName? p = s.simpleName? q → s.SameContent p q

variable {s : Schema} {id p q : Nat} {ids ids' : List Nat}

lemma HasContent.unique (h : s.HasContent id ids) (h' : s.HasContent id ids') : ids = ids' := by
  obtain ⟨content, hcontent, hunfolds⟩ := h
  obtain ⟨content', hcontent', hunfolds'⟩ := h'
  rw [hcontent] at hcontent'
  cases hcontent'
  exact hunfolds.unique hunfolds'

/-- The elements that content is unfolded to are the children that are required, each once. -/
lemma HasContent.requiredChildren_eq (h : s.HasContent id ids) (hapart : s.TellsApart ids) :
    (Declaration.pattern s id).requiredChildren = (ids.foldl addOnce []).map (.pattern s) := by
  obtain ⟨content, hcontent, hunfolds⟩ := h
  have hall : ∀ p ∈ ids.foldl addOnce [], (s.simpleName? p).isSome = true := by
    intro p hp
    rcases mem_foldl_addOnce.mp hp with hp | hp
    · cases hp
    · obtain ⟨localName, hname⟩ := hapart.named p hp
      rw [hname]
      rfl
  rw [Declaration.requiredChildren, hcontent]
  dsimp only
  rw [hunfolds.requiredElementPatterns_eq]
  exact congrArg _ (List.filter_eq_self.mpr hall)

/-- Where elements are told apart by their names, the first declaration of a name has the content of
all of that name. -/
lemma HasContent.exists_child? (h : s.HasContent id ids) (hapart : s.TellsApart ids) (hp : p ∈ ids)
    {c : ElementNode} (hname : s.simpleName? p = some c.expandedName) :
    ∃ q ∈ ids, s.SameContent q p ∧ (Declaration.pattern s id).child? c = some (.pattern s q) := by
  obtain ⟨content, hcontent, hunfolds⟩ := h
  have hmem {q : Nat} : q ∈ s.elementPatterns content ↔ q ∈ ids := by
    have hunfolded : q ∈ ids ↔ (∃ m ∈ [content], s.Leads true m q) ∧ s.isElement q = true :=
      hunfolds.mem_iff
    simp [mem_elementPatterns_iff, hunfolded]
  obtain ⟨q, hfind⟩ : ∃ q, (s.elementPatterns content).find? (s.admits · c.expandedName) = some q :=
    Option.isSome_iff_exists.mp (List.find?_isSome.mpr
      ⟨p, hmem.mpr hp, (s.admits_iff_of_simpleName? hname).mpr rfl⟩)
  have hq : q ∈ ids := hmem.mp (List.mem_of_find?_eq_some hfind)
  have hadmits : s.admits q c.expandedName = true := by simpa using List.find?_some hfind
  obtain ⟨localName, hqname⟩ := hapart.named q hq
  have hsame : s.simpleName? q = s.simpleName? p := by
    rw [hname, (s.admits_iff_of_simpleName? hqname).mp hadmits, hqname]
  refine ⟨q, hq, hapart.apart q hq p hp hsame, ?_⟩
  rw [child?_eq_find? hcontent, hfind]
  rfl

/-- Contents of a sort are those of the element and those below it. -/
lemma HasContent.nests_iff (h : s.HasContent id ids) {ok : List Nat → Prop} {levels : Nat} :
    s.Nests ok (levels + 1) id ↔ ok ids ∧ ∀ p ∈ ids, s.Nests ok levels p := by
  constructor
  · rintro ⟨ids', h', hok, hbelow⟩
    obtain rfl := h.unique h'
    exact ⟨hok, hbelow⟩
  · rintro ⟨hok, hbelow⟩
    exact ⟨ids, h, hok, hbelow⟩

lemma SameContent.nests_iff (h : s.SameContent p q) {ok : List Nat → Prop} {levels : Nat} :
    s.Nests ok levels p ↔ s.Nests ok levels q := by
  cases levels with
  | zero => exact and_congr_left fun _ => h []
  | succ levels => exact exists_congr fun ids => and_congr_left fun _ => h ids

/-! ## One element -/

variable {t : Tree} {e : ElementNode}

/-- The children that are generated go with the elements that the content is unfolded to, each taken
once. -/
lemma HasContent.exists_assigned (h : s.HasContent id ids) (hapart : s.TellsApart ids)
    (ht : t.IsBare)
    {R : Declaration → ElementNode → Prop} (hR : ∀ d c, R d c → d.Heads c)
    (hchildren : List.Forall₂ R (Declaration.pattern s id).requiredChildren (t.childElements e)) :
    ∃ assigned : List (Nat × ElementNode), assigned.map Prod.fst = ids.foldl addOnce [] ∧
      assigned.map Prod.snd = t.childElements e ∧ ∀ a ∈ assigned,
        a.1 ∈ ids ∧ s.simpleName? a.1 = some a.2.expandedName ∧ R (.pattern s a.1) a.2 := by
  rw [h.requiredChildren_eq hapart, List.forall₂_map_left_iff] at hchildren
  have hlength := hchildren.length_eq
  refine ⟨(ids.foldl addOnce []).zip (t.childElements e), List.map_fst_zip hlength.le,
    List.map_snd_zip hlength.ge, fun a ha => ?_⟩
  obtain ⟨hfound, hchild⟩ := List.of_mem_zip ha
  have hmem : a.1 ∈ ids := by
    rcases mem_foldl_addOnce.mp hfound with hnil | hmem
    · cases hnil
    · exact hmem
  have hrelated : R (.pattern s a.1) a.2 := (List.forall₂_iff_zip.mp hchildren).2 ha
  obtain ⟨localName, hname⟩ := hapart.named a.1 hmem
  refine ⟨hmem, ?_, hrelated⟩
  rw [ht.expandedName (Tree.element?_of_mem_childElements hchild), (hR _ _ hrelated).name,
    localName_pattern hname, hname]

/-- **The content of what is generated is valid exactly if it asks for no element twice.** -/
lemma HasContent.valid_iff (h : s.HasContent id ids) (hapart : s.TellsApart ids) (ht : t.IsBare)
    (hchildren : List.Forall₂ Declaration.Heads (Declaration.pattern s id).requiredChildren
      (t.childElements e)) (hfit : Grammar.Visit.fits t ⟨e, .pattern s id⟩ = true) :
    Grammar.Visit.Valid t ⟨e, .pattern s id⟩ ↔ ids.Nodup := by
  obtain ⟨assigned, hfound, helements, hassigned⟩ :=
    h.exists_assigned hapart ht (fun _ _ hheads => hheads) hchildren
  obtain ⟨content, hcontent, hunfolds⟩ := h
  let names (p : Nat) : String × String := (s.simpleName? p).getD ("", "")
  have hnames : ∀ p ∈ ids, s.simpleName? p = some (names p) := by
    intro p hp
    obtain ⟨localName, hname⟩ := hapart.named p hp
    simp only [names, hname, Option.getD_some]
  have hspelled : (t.childElements e).map ElementNode.expandedName =
      (s.requiredElementPatterns content).map names := by
    rw [hunfolds.requiredElementPatterns_eq, ← hfound, ← helements, List.map_map, List.map_map]
    refine List.map_congr_left fun a ha => ?_
    obtain ⟨hmem, hname, -⟩ := hassigned a ha
    exact Option.some.inj (hname.symm.trans (hnames a.1 hmem))
  rw [Grammar.Visit.Valid, s.isValid_checkContent hcontent,
    s.foldChildren_valid_iff _ _ (s.childrenFit_of_checkFits hcontent hfit), hspelled]
  exact hunfolds.names_mem_childNames_iff hnames

/-- The children that are generated are validated as elements with the content of what they are
generated for. -/
lemma HasContent.exists_childVisits (h : s.HasContent id ids)
    (hapart : s.TellsApart ids) (uri : Url)
    {assigned : List (Nat × ElementNode)} (helements : assigned.map Prod.snd = t.childElements e)
    (hassigned : ∀ a ∈ assigned, a.1 ∈ ids ∧ s.simpleName? a.1 = some a.2.expandedName) :
    ∃ found : Nat × ElementNode → Nat,
      (Grammar.relaxNg uri s).childVisits t ⟨e, .pattern s id⟩ =
        assigned.map (fun a => ⟨a.2, .pattern s (found a)⟩) ∧
      ∀ a ∈ assigned, found a ∈ ids ∧ s.SameContent (found a) a.1 := by
  have hchild : ∀ a ∈ assigned, ∃ q, q ∈ ids ∧ s.SameContent q a.1 ∧
      (Declaration.pattern s id).child? a.2 = some (.pattern s q) := fun a ha =>
    h.exists_child? hapart (hassigned a ha).1 (hassigned a ha).2
  choose! found hmem hsame hfound using hchild
  refine ⟨found, ?_, fun a ha => ⟨hmem a ha, hsame a ha⟩⟩
  rw [Grammar.childVisits, ← helements, List.filterMap_map, ← List.filterMap_eq_map]
  refine List.filterMap_congr fun a ha => ?_
  rw [Function.comp_apply, Grammar.childDeclaration?, hfound a ha]
  rfl

/-! ## From an element down -/

/-- **All that is generated from an element down is valid exactly if no content asks for an element
twice.** Children are numbered after their parents, so the number of nodes bounds the levels that
are validated. -/
lemma Nests.valid_visitsFrom_iff (uri : Url) {levels fuel : Nat}
    (hnests : s.Nests s.TellsApart levels id)
    (ht : t.IsBare) (hshaped : t.Shaped) (hsame : s.SameContent id p)
    (hrealizes : t.Realizes levels (.pattern s p) e) (he : t.element? e.id = some e)
    (hle : t.nodes.size ≤ fuel + e.id)
    (hfits : ∀ v ∈ (Grammar.relaxNg uri s).visitsFrom t fuel ⟨e, .pattern s id⟩, v.fits t = true) :
    (∀ v ∈ (Grammar.relaxNg uri s).visitsFrom t fuel ⟨e, .pattern s id⟩, v.Valid t) ↔
      s.Nests List.Nodup levels id := by
  induction fuel generalizing levels id p e with
  | zero =>
      have hlt := Tree.id_lt_size he
      omega
  | succ fuel ih =>
      rw [Grammar.visitsFrom, List.forall_mem_cons] at hfits ⊢
      obtain ⟨hfit, hbelow⟩ := hfits
      cases levels with
      | zero =>
          obtain ⟨hcontent, hapart⟩ := hnests
          obtain ⟨-, hnone⟩ := hrealizes
          have hchildren : List.Forall₂ Declaration.Heads
              (Declaration.pattern s id).requiredChildren
              (t.childElements e) := by
            rw [hcontent.requiredChildren_eq hapart, hnone]
            exact .nil
          have hvisits : (Grammar.relaxNg uri s).childVisits t ⟨e, .pattern s id⟩ = [] := by
            rw [Grammar.childVisits, hnone]
            rfl
          rw [hcontent.valid_iff hapart ht hchildren hfit, hvisits]
          exact ⟨fun h => ⟨hcontent, h.1⟩, fun h => ⟨h.2, fun v hv => by cases hv⟩⟩
      | succ levels =>
          obtain ⟨ids, hcontent, hapart, hmore⟩ := hnests
          obtain ⟨-, hchildren⟩ := hrealizes
          rw [((hsame ids).mp hcontent).requiredChildren_eq hapart,
            ← hcontent.requiredChildren_eq hapart] at hchildren
          have hvalid := hcontent.valid_iff hapart ht
            (hchildren.imp fun _ _ => Tree.Realizes.heads) hfit
          obtain ⟨assigned, hids, helements, hassigned⟩ :=
            hcontent.exists_assigned hapart ht (fun _ _ => Tree.Realizes.heads) hchildren
          obtain ⟨found, hvisits, hfound⟩ := hcontent.exists_childVisits hapart uri helements
            fun a ha => ⟨(hassigned a ha).1, (hassigned a ha).2.1⟩
          have hbelowIds : (∀ p ∈ ids, s.Nests List.Nodup levels p) ↔
              ∀ a ∈ assigned, s.Nests List.Nodup levels (found a) := by
            have hall : (∀ p ∈ ids, s.Nests List.Nodup levels p) ↔
                ∀ a ∈ assigned, s.Nests List.Nodup levels a.1 := by
              rw [← List.forall_mem_map (f := Prod.fst), hids]
              refine forall_congr' fun p => ?_
              rw [mem_foldl_addOnce]
              simp
            rw [hall]
            exact forall₂_congr fun a ha => (hfound a ha).2.nests_iff.symm
          rw [hvalid, hcontent.nests_iff, hbelowIds, List.forall_mem_flatMap, hvisits,
            List.forall_mem_map]
          refine and_congr_right fun _ => forall₂_congr fun a ha => ?_
          obtain ⟨-, -, hrealizes⟩ := hassigned a ha
          obtain ⟨hmem, hsame⟩ := hfound a ha
          have hchild : a.2 ∈ t.childElements e := helements ▸ List.mem_map_of_mem ha
          have hafter := hshaped.id_lt_child he hchild
          refine ih (hmore (found a) hmem) hsame hrealizes
            (Tree.element?_of_mem_childElements hchild) (by omega) ?_
          intro v hv
          refine hbelow v (List.mem_flatMap.mpr ⟨_, ?_, hv⟩)
          rw [hvisits]
          exact List.mem_map_of_mem ha

/-- **What is generated for a declaration is complete exactly if no content asks for an element
twice**, where contents have no choices and nest no deeper than an outline: the text is read as the
element that is asked for, and the validation of this from the declaration on finds nothing
unexpected and nothing missing. -/
theorem valid_insertion_iff (uri : Url) (s : Schema) (id : Nat)
    (hnests : s.Nests s.TellsApart outlineLevels id)
    (hwritten : (Declaration.pattern s id).outline.everywhere isQualifiedTag = true)
    (hbare : (Declaration.pattern s id).outline.everywhere isBareTag = true) (l : Layout)
      (hl : l.IsBlank)
    (level : Nat) (url : Url) (version : Int) (unit : ColumnUnit) (d : Document)
    (hd : d = Document.parse url version unit
      ((Declaration.pattern s id).insertion l {} level none false).toList) :
    d.fault = none ∧ ∃ e, d.topLevel = [e.id] ∧ d.root? = some e ∧
      d.Realizes outlineLevels (.pattern s id) e ∧
      ((∀ v ∈ (Grammar.relaxNg uri s).visits d.toTree e (.pattern s id), v.fits d.toTree = true) →
        ((∀ v ∈ (Grammar.relaxNg uri s).visits d.toTree e (.pattern s id), v.Valid d.toTree) ↔
          s.Nests List.Nodup outlineLevels id)) := by
  have htree : d.toTree =
      Tree.parse (plainText ((Declaration.pattern s id).outline.pieces l {} level
        none)).toList := by
    rw [hd]
    rfl
  have hshaped : d.toTree.Shaped := htree ▸ Tree.parse_shaped _
  have htbare : d.toTree.IsBare := Outline.isBare_parse hl level hwritten hbare htree
  obtain ⟨hfault, e, htop, hroot, hmirrors⟩ := Outline.mirrors_parse hl level hwritten htree
  refine ⟨hfault, e, htop, hroot, hmirrors.realizes, fun hfits => ?_⟩
  exact hnests.valid_visitsFrom_iff uri htbare hshaped (fun _ => .rfl) hmirrors.realizes
    (Tree.element?_root hroot) (Nat.le_add_right _ _) hfits

/-! ## A recipient too many -/

lemma Nests.of_nothing {ok : List Nat → Prop} (h : s.HasContent id []) (hok : ok [])
    (levels : Nat) :
    s.Nests ok levels id := by
  cases levels with
  | zero => exact ⟨h, hok⟩
  | succ levels => exact ⟨[], h, hok, fun p hp => by cases hp⟩

/-- Mails to someone, and then a subject and parts in any order.  If there are to be two recipients,
the content refers to their element twice. -/
def mails (twice : Bool) : Schema where
  patterns := #[.element (.name "" "mail") 1 none, .group (if twice then [3, 2, 4] else [2, 4]),
    .ref 0, .ref 0,
    .interleave [5, 6], .element (.name "" "subject") 9 none, .oneOrMore 7,
    .element (.name "" "part") 8 none,
    .element (.name "" "kind") 9 none, .text, .element (.name "" "to") 9 none]
  definitions := #[⟨"to", some 10⟩]
  start := 0

lemma hasContent_mails (twice : Bool) :
    (mails twice).HasContent 0 (if twice then [10, 10, 5, 7] else [10, 5, 7]) := by
  have hrest : (mails twice).Unfolds [4] [5, 7] :=
    .sole rfl (.element rfl (.sole rfl (.element rfl .nil)))
  have hto : (mails twice).Unfolds [2, 4] ([10] ++ [5, 7]) := .plain rfl (.element rfl .nil) hrest
  have hboth : (mails twice).Unfolds [3, 2, 4] ([10] ++ [10, 5, 7]) :=
    .plain rfl (.element rfl .nil) hto
  refine ⟨1, rfl, .sole rfl ?_⟩
  cases twice with
  | false => exact hto
  | true => exact hboth

lemma tellsApart_mails (twice : Bool) {ids : List Nat} (h : ids ⊆ [5, 7, 8, 10]) :
    (mails twice).TellsApart ids := by
  have hnamed : ∀ p ∈ [5, 7, 8, 10], ((mails twice).simpleName? p).map Prod.fst = some "" := by
    decide +revert
  have hapart : ∀ p ∈ [5, 7, 8, 10], ∀ q ∈ [5, 7, 8, 10],
      (mails twice).simpleName? p = (mails twice).simpleName? q → p = q := by
    decide +revert
  refine ⟨fun p hp => ?_, fun p hp q hq hname ids => ?_⟩
  · obtain ⟨⟨ns, localName⟩, hname, rfl⟩ := Option.map_eq_some_iff.mp (hnamed p (h hp))
    exact ⟨localName, hname⟩
  · rw [hapart p (h hp) q (h hq) hname]

/-- Contents of mails are of a sort if those of mails and of their parts are, and where nothing is
in. -/
lemma nests_mails (twice : Bool) {ok : List Nat → Prop}
    (hmail : ok (if twice then [10, 10, 5, 7] else [10, 5, 7])) (hpart : ok [8])
    (hnothing : ok []) :
    (mails twice).Nests ok outlineLevels 0 := by
  have hleaf {p : Nat} (hp : (mails twice).elementContent? p = some 9) (levels : Nat) :
      (mails twice).Nests ok levels p :=
    .of_nothing ⟨9, hp, .sole rfl .nil⟩ hnothing levels
  have hparts : (mails twice).Nests ok 7 7 :=
    ⟨[8], ⟨8, rfl, .element rfl .nil⟩, hpart, List.forall_mem_singleton.mpr (hleaf rfl 6)⟩
  refine ⟨_, hasContent_mails twice, hmail, ?_⟩
  cases twice with
  | false => simpa using ⟨hleaf rfl 7, hleaf rfl 7, hparts⟩
  | true => simpa using ⟨hleaf rfl 7, hleaf rfl 7, hparts⟩

lemma nests_tellsApart_mails (twice : Bool) :
    (mails twice).Nests (mails twice).TellsApart outlineLevels 0 := by
  refine nests_mails twice (tellsApart_mails twice ?_) (tellsApart_mails twice (by simp))
    (tellsApart_mails twice (by simp))
  cases twice <;> simp

/-- The declaration of `mail`. -/
def mailDeclaration (twice : Bool) : Declaration :=
  .pattern (mails twice) 0

/-- What is validated of a generated mail. -/
def mailVisits (twice : Bool) (e : ElementNode) : List Grammar.Visit :=
  (Grammar.relaxNg (Grammar.fileAtTop "a.rng") (mails twice)).visits
    (generatedDocument (mailDeclaration twice)).toTree e (mailDeclaration twice)

theorem valid_insertion_mail :
    (mails false).Nests (mails false).TellsApart outlineLevels 0 ∧
    (mailDeclaration false).outline.everywhere isQualifiedTag = true ∧
    (mailDeclaration false).outline.everywhere isBareTag = true ∧ Layout.IsBlank {} ∧
    (mailDeclaration false).insertion {} {} 0 none false =
    "<mail>\n  <to></to>\n  <subject></subject>\n  <part>\n    <kind></kind>\n  </part>\n</mail>" ∧
    ∃ e, (generatedDocument (mailDeclaration false)).root? = some e ∧
      (∀ v ∈ mailVisits false e, v.fits (generatedDocument (mailDeclaration false)).toTree = true) ∧
      ∀ v ∈ mailVisits false e, v.Valid (generatedDocument (mailDeclaration false)).toTree := by
  have hnests := nests_tellsApart_mails false
  have hwritten : (mailDeclaration false).outline.everywhere isQualifiedTag =
      true := by decide +kernel
  have hbare : (mailDeclaration false).outline.everywhere isBareTag = true := by decide +kernel
  have hblank : Layout.IsBlank {} := Layout.isBlank_of_newline rfl
  obtain ⟨-, e, -, hroot, -, hiff⟩ :=
    valid_insertion_iff (Grammar.fileAtTop "a.rng") (mails false) 0 hnests
    hwritten hbare {} hblank 0 (Grammar.fileAtTop "a.xml") 1 .utf16
    (generatedDocument (mailDeclaration false)) rfl
  have hall : (generatedDocument (mailDeclaration false)).root?.all
      (fun e => (mailVisits false e).all
      (Grammar.Visit.fits (generatedDocument (mailDeclaration false)).toTree)) = true := by
    decide +kernel
  rw [hroot, Option.all_some, List.all_eq_true] at hall
  exact ⟨hnests, hwritten, hbare, hblank, by decide +kernel, e, hroot, hall,
    (hiff hall).mpr (nests_mails false (by decide) (by decide) (by decide))⟩

/-- Of two recipients only one is generated. -/
theorem incomplete_insertion_mail :
    (mails true).Nests (mails true).TellsApart outlineLevels 0 ∧
    (mailDeclaration true).outline.everywhere isQualifiedTag = true ∧
    (mailDeclaration true).outline.everywhere isBareTag = true ∧ Layout.IsBlank {} ∧
    (mailDeclaration true).insertion {} {} 0 none false =
    "<mail>\n  <to></to>\n  <subject></subject>\n  <part>\n    <kind></kind>\n  </part>\n</mail>" ∧
    ∃ e, (generatedDocument (mailDeclaration true)).root? = some e ∧
      (∀ v ∈ mailVisits true e, v.fits (generatedDocument (mailDeclaration true)).toTree = true) ∧
      ¬ ∀ v ∈ mailVisits true e, v.Valid (generatedDocument (mailDeclaration true)).toTree := by
  have hany : (generatedDocument (mailDeclaration true)).root?.any (fun e =>
      (mailVisits true e).all
        (Grammar.Visit.fits (generatedDocument (mailDeclaration true)).toTree) &&
      !(mailVisits true e).all fun v => (v.declaration.checkContent
        ((generatedDocument (mailDeclaration true)).childElements v.element)).isValid) = true := by
    decide +kernel
  obtain ⟨e, hroot⟩ : ∃ e, (generatedDocument (mailDeclaration true)).root? = some e :=
    Option.isSome_iff_exists.mp (Option.isSome_of_any hany)
  rw [hroot, Option.any_some, Bool.and_eq_true, List.all_eq_true] at hany
  obtain ⟨hfits, hinvalid⟩ := hany
  refine ⟨nests_tellsApart_mails true, by decide +kernel, by decide +kernel,
    Layout.isBlank_of_newline rfl,
    by decide +kernel, e, hroot, hfits, fun hvalid => ?_⟩
  have hall := List.all_eq_true.mpr hvalid
  rw [Bool.not_eq_true'] at hinvalid
  exact absurd hall (Bool.eq_false_iff.mp hinvalid)

end Schema

end XmlAdvisor
