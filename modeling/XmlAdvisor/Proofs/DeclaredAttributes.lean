import XmlAdvisor.Proofs.DefinitionAssembly
import XmlAdvisor.Proofs.ElementDocumentation
import XmlAdvisor.Tree.Build
import XmlAdvisor.Validation.Violation

/-!
# Attributes that go by another name

In a definition, attributes are declared by the names that they are written with.  An element is
checked against schemas and definitions alike, so an attribute is also taken for the one that has
its local name. Where that is another attribute, the check finds less than the names tell.

* `DtdScan.Yields` — what can be said of whatever a step reads.
* `Dtd.listed_ne_nil` — whenever the type of an attribute lists values, there are some.
* `DtdElement.violationsByName` — what the names of attributes tell.
* `DtdElement.StandsIn` — whether an attribute is taken for another one.
* `eq_of_filterMap_eq` — lists of findings agree only if each finding does, if one side never finds
  more.
* **`Dtd.attributeViolations_eq_iff`** — the check tells what the names tell, exactly if no
  attribute is taken for another one.
-/

namespace XmlAdvisor

/-- The values that a type lists, if it is one that lists values. -/
def AttributeType.listed? : AttributeType → Option (List String)
  | .enumeration names | .notations names => some names
  | _ => none

/-! ## Lists of values -/

namespace DtdScan

variable {α β : Type} {P : α → Prop} {Q : β → Prop}

/-- Whether whatever a step reads is of a kind. -/
def Yields (m : DtdScan α) (P : α → Prop) : Prop :=
  ∀ cs a rest, m.run cs = some (a, rest) → P a

lemma yields_pure {a : α} (h : P a) : Yields (pure a) P := by
  rintro cs b rest hrun
  cases hrun
  exact h

lemma yields_failure : Yields failure P :=
  fun _ _ _ hrun => by cases hrun

/-- What is read last is of a kind, after whatever was read before. -/
lemma Yields.bind {m : DtdScan β} {f : β → DtdScan α} (hm : m.Yields Q)
    (hf : ∀ b, Q b → (f b).Yields P) : (m >>= f).Yields P := by
  intro cs a rest hrun
  obtain ⟨⟨b, cs'⟩, hb, ha⟩ := Option.bind_eq_some_iff.mp hrun
  exact hf b (hm cs b cs' hb) cs' a rest ha

lemma yields_bind {m : DtdScan β} {f : β → DtdScan α} (hf : ∀ b, (f b).Yields P) :
    (m >>= f).Yields P :=
  Yields.bind (Q := fun _ => True) (fun _ _ _ _ => trivial) fun b _ => hf b

lemma yields_ite {c : Prop} [Decidable c] {yes no : DtdScan α} (hyes : yes.Yields P)
    (hno : no.Yields P) : (if c then yes else no).Yields P := by
  split_ifs
  · exact hyes
  · exact hno

lemma yields_alternatives (count : Nat) : (alternatives count).Yields (· ≠ []) := by
  cases count with
  | zero => exact yields_failure
  | succ count =>
      refine yields_bind fun _ => yields_bind fun n => yields_bind fun _ => yields_bind fun _ => ?_
      refine yields_ite (yields_pure (List.cons_ne_nil _ _))
        (yields_bind fun _ => yields_bind fun more => ?_)
      exact yields_pure (List.cons_ne_nil _ _)

lemma yields_attributeType : attributeType.Yields (·.listed? ≠ some []) := by
  have hlist {kind : List String → AttributeType}
      (hkind : ∀ names, (kind names).listed? = some names)
      (count : Nat) : (alternatives count >>= fun names => pure (kind names)).Yields
        (·.listed? ≠ some []) :=
    (yields_alternatives count).bind fun names hne => yields_pure (by simp [hkind, hne])
  refine yields_bind fun _ => yields_ite (yields_bind fun count => hlist (fun _ => rfl) count) ?_
  refine yields_bind fun n => ?_
  split
  case h_9 =>
    exact yields_bind fun _ => yields_bind fun _ => yields_bind fun count =>
      hlist (fun _ => rfl) count
  case h_10 => exact yields_failure
  all_goals exact yields_pure nofun

lemma yields_attributeList (count : Nat) :
    (attributeList count).Yields fun as => ∀ a ∈ as, a.type.listed? ≠ some [] := by
  induction count with
  | zero => exact yields_failure
  | succ count ih =>
      refine yields_bind fun _ => yields_bind fun _ => yields_ite (yields_pure nofun) ?_
      refine yields_bind fun n => yields_bind fun _ =>
        yields_attributeType.bind fun type htype => ?_
      refine yields_bind fun _ => yields_bind fun default => ih.bind fun more hmore => ?_
      exact yields_pure (List.forall_mem_cons.mpr ⟨htype, hmore⟩)

lemma yields_attributesDeclaration :
    attributesDeclaration.Yields fun p => ∀ n, ∀ a ∈ p.attributesOf n,
    a.type.listed? ≠ some [] := by
  refine yields_bind fun _ => yields_bind fun element => yields_bind fun count => ?_
  refine (yields_attributeList count).bind fun as has => yields_pure fun n a ha => ?_
  rw [DtdPiece.attributesOf] at ha
  split_ifs at ha
  · exact has a ha
  · cases ha

lemma yields_elementDeclaration :
    elementDeclaration.Yields fun p => ∀ n, p.attributesOf n = [] := by
  refine yields_bind fun _ => yields_bind fun _ => yields_bind fun _ => yields_bind fun _ => ?_
  exact yields_bind fun _ => yields_bind fun _ => yields_pure fun _ => rfl

lemma run_attributesDeclaration {a b c rest : List Char} {n : String} {as : List DtdAttribute}
    (hblanks : someBlanks.run a = some ((), b)) (hname : name.run b = some (n, c))
    (hlist : (attributeList (2 * c.length + 2)).run c = some (as, rest)) :
    attributesDeclaration.run a = some (.attributes n as, rest) := by
  have henough : enough.run c = some (2 * c.length + 2, c) := rfl
  simp only [attributesDeclaration, StateT.run_bind, Option.bind_eq_bind, hblanks,
    Option.bind_some, hname,
    henough, hlist]
  rfl

end DtdScan

namespace DtdAssembly

lemma mem_addNew {known more : List DtdAttribute} {a : DtdAttribute} (h : a ∈ addNew known more) :
    a ∈ known ∨ a ∈ more := by
  induction more generalizing known with
  | nil => exact .inl h
  | cons b more ih =>
      rw [addNew, List.foldl_cons] at h
      rcases ih h with hknown | hmore
      · split_ifs at hknown
        · exact .inl hknown
        · rcases List.mem_append.mp hknown with hknown | hnew
          · exact .inl hknown
          · exact .inr (List.mem_singleton.mp hnew ▸ List.mem_cons_self ..)
      · exact .inr (List.mem_cons_of_mem b hmore)

/-- Every attribute that has been assembled is one that some piece declares. -/
lemma exists_piece_of_mem {pieces : List DtdPiece} {n : String} {a : DtdAttribute}
    (h : a ∈ ((pieces.foldl add ⟨[], [], none⟩).attributes.lookup n).getD []) :
    ∃ p ∈ pieces, a ∈ p.attributesOf n := by
  induction pieces using List.reverseRecOn with
  | nil => cases h
  | append_singleton pieces p ih =>
      rw [List.foldl_concat, lookup_add] at h
      rcases mem_addNew h with hbefore | hnew
      · obtain ⟨q, hq, ha⟩ := ih hbefore
        exact ⟨q, List.mem_append_left _ hq, ha⟩
      · exact ⟨p, List.mem_concat_self, hnew⟩

end DtdAssembly

/-- An attribute in markup lists values or may have any. -/
lemma IsMarkup.listed_ne_nil {w : List Char} {p : DtdPiece} (h : IsMarkup w p) (n : String) :
    ∀ a ∈ p.attributesOf n, a.type.listed? ≠ some [] := by
  cases h with
  | enclosed e => cases e <;> exact nofun
  | other => exact nofun
  | @declared d inner =>
      intro a ha
      rw [DtdDeclared.piece] at ha
      split at ha
      · rename_i q rest hrun
        cases d with
        | element =>
            rw [DtdScan.yields_elementDeclaration _ _ _ hrun n] at ha
            cases ha
        | attributes => exact DtdScan.yields_attributesDeclaration _ _ _ hrun n a ha
      · cases d <;> cases ha

/-- **Listed values.**  If an attribute of a definition may have only certain values, there are
some. -/
lemma Dtd.listed_ne_nil {text : List Char} {d : Dtd} (h : Dtd.read text = .ok d) {e : DtdElement}
    (he : e ∈ d.elements) {a : DtdAttribute} (ha : a ∈ e.attributes) :
    a.type.listed? ≠ some [] := by
  obtain ⟨pieces, htiled, rfl⟩ := read_eq_ok_iff.mp h
  obtain ⟨e, -, rfl⟩ := List.mem_map.mp he
  obtain ⟨p, hp, hdeclared⟩ := DtdAssembly.exists_piece_of_mem ha
  clear h he ha
  induction htiled with
  | blank => cases hp
  | markup _ hw _ ih =>
      rcases List.mem_cons.mp hp with rfl | hp
      · exact hw.listed_ne_nil _ a hdeclared
      · exact ih hp

/-! ## What the names tell -/

namespace DtdElement

/-- The declared attribute with the given name. -/
def attribute? (e : DtdElement) (name : String) : Option DtdAttribute :=
  e.attributes.find? (·.name = name)

/-- What is said of a required attribute that an element does not have. -/
def missingViolation (n : ElementNode) (b : DtdAttribute) : Violation where
  span := n.nameSpan
  problem := .requiredAttributeMissing
  message := "Attribute '" ++ b.name ++ "' is required on element '" ++ n.element.tagName ++ "'."
  data := some (.object [("attributeName", .string b.name)])

/-- What is said of an attribute that is not declared. -/
def undeclaredViolation (n : ElementNode) (a : Attribute) : Violation where
  span := a.nameSpan
  problem := .attributeNotAllowed
  message := "Attribute '" ++ a.name ++ "' is not allowed on element '" ++ n.element.tagName ++ "'."

/-- What is said of a value that is not one of those that are listed. -/
def valueViolation (a : Attribute) (names : List String) : Violation where
  span := a.valueSpan
  problem := .attributeValueInvalid
  message := "Value '" ++ a.value ++ "' is not valid for attribute '" ++ a.name
    ++ "'. Expected one of: " ++ quoteNames names ++ "."

/-- A required attribute is missing if no attribute has its name. -/
def missingByName? (n : ElementNode) (b : DtdAttribute) : Option Violation :=
  if n.element.attributes.any (·.name = b.name) then none else some (missingViolation n b)

/-- An attribute is wrong if its name is not declared, or if it is declared with a list of values in
which the value is missing. -/
def violationByName? (e : DtdElement) (n : ElementNode) (a : Attribute) : Option Violation :=
  match e.attribute? a.name with
  | none => some (undeclaredViolation n a)
  | some b =>
    match b.type.listed? with
    | none => none
    | some names => if names.contains (trimmed a.value) then none else some (valueViolation a names)

/-- The violations by the attributes of an element, as far as their names tell. -/
def violationsByName (e : DtdElement) (n : ElementNode) : List Violation :=
  (e.attributes.filter (·.default = .required)).filterMap (missingByName? n) ++
    (n.element.attributes.filter Attribute.isChecked).filterMap (e.violationByName? n)

/-- Whether an attribute is taken for a declared one of another name: for a required attribute that
is not there, or for one that it is checked as although its own name is not declared. -/
def StandsIn (e : DtdElement) (n : ElementNode) (a : Attribute) : Prop :=
  (∃ b ∈ e.attributes, b.default = .required ∧ a.localName = b.name ∧
    ∀ c ∈ n.element.attributes, c.name ≠ b.name) ∨
  (a.isChecked = true ∧ e.attribute? a.name = none ∧ (e.attribute? a.localName).isSome = true)

/-! ## What the check tells -/

/-- A required attribute is missing for the check if no attribute goes by its name. -/
def missing? (n : ElementNode) (b : DtdAttribute) : Option Violation :=
  if n.element.attributes.any (·.goesBy b.name) then none else some (missingViolation n b)

variable {d : Dtd} {e : DtdElement} {n : ElementNode} {a : Attribute} {b : DtdAttribute}

lemma missingAttributes_eq : missingAttributes (.dtd d e) n =
    (e.attributes.filter (·.default = .required)).filterMap (missing? n) := by
  rw [missingAttributes, Declaration.attributes, List.filter_map, List.filterMap_map]
  rfl

lemma attribute?_dtd (name : String) :
    (Declaration.dtd d e).attribute? name = (e.attribute? name).map DtdAttribute.declaration := by
  rw [Declaration.attribute?, Declaration.attributes, List.find?_map]
  rfl

/-- The check finds an attribute missing where its name tells so, unless another one is taken for
it. -/
lemma missing?_eq_iff : missing? n b = missingByName? n b ↔
    ∀ a ∈ n.element.attributes, a.localName = b.name → ∃ c ∈ n.element.attributes,
    c.name = b.name := by
  have hthere : n.element.attributes.any (·.name = b.name) = true ↔
      ∃ c ∈ n.element.attributes, c.name = b.name := by
    simp
  have hgoesBy : n.element.attributes.any (·.goesBy b.name) = true ↔
      (∃ c ∈ n.element.attributes, c.name = b.name) ∨
        ∃ a ∈ n.element.attributes, a.localName = b.name := by
    simp [Attribute.goesBy, and_or_left, exists_or]
  rw [missing?, missingByName?]
  by_cases hname : ∃ c ∈ n.element.attributes, c.name = b.name
  · rw [if_pos (hgoesBy.mpr (.inl hname)), if_pos (hthere.mpr hname)]
    exact iff_of_true rfl fun _ _ _ => hname
  · rw [if_neg (hthere.not.mpr hname)]
    by_cases hlocal : ∃ a ∈ n.element.attributes, a.localName = b.name
    · rw [if_pos (hgoesBy.mpr (.inr hlocal))]
      obtain ⟨a, ha, hlocal⟩ := hlocal
      exact iff_of_false nofun fun hall => hname (hall a ha hlocal)
    · rw [if_neg fun hany => (hgoesBy.mp hany).elim hname hlocal]
      exact iff_of_true rfl fun a ha h => absurd ⟨a, ha, h⟩ hlocal

/-- It finds none that is there. -/
lemma missingByName?_isSome (h : (missing? n b).isSome = true) :
    (missingByName? n b).isSome = true := by
  rw [missing?] at h
  split_ifs at h with hgoesBy
  · cases h
  · have hname : ¬n.element.attributes.any (·.name = b.name) = true := fun hany => hgoesBy <| by
      obtain ⟨c, hc, hname⟩ := List.any_eq_true.mp hany
      exact List.any_eq_true.mpr ⟨c, hc, (Bool.or_eq_true ..).mpr (.inl hname)⟩
    rw [missingByName?, if_neg hname]
    rfl

lemma values_declaration (b : DtdAttribute) : b.declaration.values = b.type.listed?.getD [] := by
  rw [DtdAttribute.declaration]
  cases b.type <;> rfl

/-- An attribute that is declared is checked as its name tells. -/
lemma attributeViolation?_of_declared (hb : e.attribute? a.name = some b)
    (hlisted : b.type.listed? ≠ some []) :
    attributeViolation? (.dtd d e) n a = e.violationByName? n a := by
  rw [attributeViolation?, Declaration.attributeFor?, attribute?_dtd, hb, violationByName?, hb]
  dsimp only [Option.map_some, Option.some_or]
  rw [values_declaration]
  cases hnames : b.type.listed? with
  | none => rfl
  | some names =>
      have hne : names.isEmpty = false := by
        rw [List.isEmpty_eq_false_iff]
        exact fun hnil => hlisted (hnil ▸ hnames)
      rw [Option.getD_some, hne, Bool.false_or]
      rfl

/-- An attribute that is not declared is not allowed for its name, and for the check unless it is
taken for one that is. -/
lemma attributeViolation?_of_undeclared (hname : e.attribute? a.name = none) :
    e.violationByName? n a = some (undeclaredViolation n a) ∧
    (attributeViolation? (.dtd d e) n a = some (undeclaredViolation n a) ↔
      e.attribute? a.localName = none) := by
  refine ⟨by rw [violationByName?, hname], ?_⟩
  rw [attributeViolation?, Declaration.attributeFor?, attribute?_dtd, attribute?_dtd, hname]
  cases hlocal : e.attribute? a.localName with
  | none => exact iff_of_true rfl rfl
  | some b =>
      refine iff_of_false (fun h => ?_) nofun
      dsimp only [Option.map_some, Option.map_none, Option.none_or] at h
      split_ifs at h
      exact absurd (congrArg Violation.problem (Option.some.inj h)) nofun

section Checked

variable (hlists : ∀ b ∈ e.attributes, b.type.listed? ≠ some [])
include hlists

/-- An attribute is checked as its name tells, unless it is taken for another one. -/
lemma attributeViolation?_eq_iff : attributeViolation? (.dtd d e) n a = e.violationByName? n a ↔
    ¬(e.attribute? a.name = none ∧ (e.attribute? a.localName).isSome = true) := by
  cases hname : e.attribute? a.name with
  | none =>
      obtain ⟨hviolation, hcheck⟩ := attributeViolation?_of_undeclared (d := d) (n := n) hname
      rw [hviolation, hcheck, ← Option.not_isSome_iff_eq_none]
      simp
  | some b =>
      have hequal := attributeViolation?_of_declared (d := d) (n := n) hname
        (hlists b (List.mem_of_find?_eq_some hname))
      exact iff_of_true hequal nofun

lemma violationByName?_isSome (h : (attributeViolation? (.dtd d e) n a).isSome = true) :
    (e.violationByName? n a).isSome = true := by
  cases hname : e.attribute? a.name with
  | none =>
      rw [(attributeViolation?_of_undeclared (d := d) hname).1]
      rfl
  | some b =>
      rwa [← attributeViolation?_of_declared (d := d) hname
        (hlists b (List.mem_of_find?_eq_some hname))]

end Checked

end DtdElement

/-! ## Comparing findings -/

section Findings

variable {α β : Type} {f g : α → Option β} {xs : List α}

lemma length_filterMap_le_of_isSome (h : ∀ x ∈ xs, (f x).isSome = true → (g x).isSome = true) :
    (xs.filterMap f).length ≤ (xs.filterMap g).length := by
  rw [List.length_filterMap_eq_countP, List.length_filterMap_eq_countP]
  exact List.countP_mono_left h

/-- If one side never finds more than the other one, lists of findings agree only if each finding
does. -/
lemma eq_of_filterMap_eq (h : ∀ x ∈ xs, (f x).isSome = true → (g x).isSome = true)
    (heq : xs.filterMap f = xs.filterMap g) : ∀ x ∈ xs, f x = g x := by
  induction xs with
  | nil => exact nofun
  | cons x xs ih =>
      have hx := h x (List.mem_cons_self ..)
      have hxs := fun y hy => h y (List.mem_cons_of_mem x hy)
      have hle := length_filterMap_le_of_isSome hxs
      cases hf : f x with
      | none =>
          cases hg : g x with
          | none =>
              rw [List.filterMap_cons_none hf, List.filterMap_cons_none hg] at heq
              exact List.forall_mem_cons.mpr ⟨hf.trans hg.symm, ih hxs heq⟩
          | some b =>
              rw [List.filterMap_cons_none hf, List.filterMap_cons_some hg] at heq
              have hlength := congrArg List.length heq
              rw [List.length_cons] at hlength
              omega
      | some a =>
          obtain ⟨b, hg⟩ := Option.isSome_iff_exists.mp (hx (hf ▸ rfl))
          rw [List.filterMap_cons_some hf, List.filterMap_cons_some hg] at heq
          obtain ⟨hab, hrest⟩ := List.cons.inj heq
          exact List.forall_mem_cons.mpr ⟨by rw [hf, hg, hab], ih hxs hrest⟩

lemma filterMap_eq_iff (h : ∀ x ∈ xs, (f x).isSome = true → (g x).isSome = true) :
    xs.filterMap f = xs.filterMap g ↔ ∀ x ∈ xs, f x = g x :=
  ⟨eq_of_filterMap_eq h, List.filterMap_congr⟩

/-- Neither part of two lists can be longer, so the parts agree if the lists do. -/
lemma append_eq_iff_of_length_le {as bs cs ds : List β} (hfirst : as.length ≤ cs.length)
    (hsecond : bs.length ≤ ds.length) : as ++ bs = cs ++ ds ↔ as = cs ∧ bs = ds := by
  refine ⟨fun h => ?_, fun h => by rw [h.1, h.2]⟩
  have hlength := congrArg List.length h
  rw [List.length_append, List.length_append] at hlength
  exact List.append_inj h (by omega)

end Findings

namespace Dtd

open DtdElement

/-- **Attributes are checked by the names they are declared by, or else taken for others.**  Of an
element with a declaration of a definition, the check finds the same as the names of its attributes
tell, exactly if none of them is taken for a declared one of another name. -/
theorem attributeViolations_eq_iff {text : List Char} {d : Dtd} (h : Dtd.read text = .ok d)
    {e : DtdElement} (he : e ∈ d.elements) (n : ElementNode) :
    attributeViolations (.dtd d e) n = e.violationsByName n ↔
      ∀ a ∈ n.element.attributes, ¬e.StandsIn n a := by
  have hlists : ∀ b ∈ e.attributes, b.type.listed? ≠ some [] := fun b hb => listed_ne_nil h he hb
  have hmissing : ∀ b ∈ e.attributes.filter (·.default = .required),
      (missing? n b).isSome = true → (missingByName? n b).isSome = true :=
    fun _ _ => missingByName?_isSome
  have hviolation : ∀ a ∈ n.element.attributes.filter Attribute.isChecked,
      (attributeViolation? (.dtd d e) n a).isSome = true → (e.violationByName? n a).isSome = true :=
    fun _ _ => violationByName?_isSome hlists
  rw [attributeViolations, missingAttributes_eq, violationsByName,
    append_eq_iff_of_length_le (length_filterMap_le_of_isSome hmissing)
      (length_filterMap_le_of_isSome hviolation), filterMap_eq_iff hmissing,
        filterMap_eq_iff hviolation]
  simp only [missing?_eq_iff, attributeViolation?_eq_iff hlists]
  constructor
  · rintro ⟨hmissing, hchecked⟩ a ha (⟨b, hb, hrequired, hlocal, hnone⟩ | ⟨ha', hname, hlocal⟩)
    · obtain ⟨c, hc, hname⟩ :=
        hmissing b (List.mem_filter.mpr ⟨hb, decide_eq_true hrequired⟩) a ha hlocal
      exact hnone c hc hname
    · exact hchecked a (List.mem_filter.mpr ⟨ha, ha'⟩) ⟨hname, hlocal⟩
  · refine fun hnone => ⟨fun b hb a ha hlocal => ?_, fun a ha hother => ?_⟩
    · obtain ⟨hb, hrequired⟩ := List.mem_filter.mp hb
      by_contra hno
      exact hnone a ha (.inl ⟨b, hb, of_decide_eq_true hrequired, hlocal,
        fun c hc hname => hno ⟨c, hc, hname⟩⟩)
    · obtain ⟨ha, hchecked⟩ := List.mem_filter.mp ha
      exact hnone a ha (.inr ⟨hchecked, hother⟩)

/-- A note that has an owner and may be of one of two kinds. -/
def ownedNote : DtdElement :=
  ⟨"note", .empty, [⟨"owner", .cdata, .required⟩, ⟨"kind", .enumeration ["a", "b"], .implied⟩],
    none⟩

def ownedNoteText : List Char :=
  "<!ELEMENT note EMPTY>".toList ++
    ("<!ATTLIST".toList ++ " note owner CDATA #REQUIRED kind (a|b) #IMPLIED>".toList)

lemma read_ownedNoteText : Dtd.read ownedNoteText = .ok ⟨[ownedNote]⟩ := by
  have hrun : DtdScan.attributesDeclaration.run
      " note owner CDATA #REQUIRED kind (a|b) #IMPLIED>".toList =
      some (.attributes "note" ownedNote.attributes, []) :=
    DtdScan.run_attributesDeclaration
      (b := "note owner CDATA #REQUIRED kind (a|b) #IMPLIED>".toList)
      (c := " owner CDATA #REQUIRED kind (a|b) #IMPLIED>".toList) (by decide +kernel)
      (by decide +kernel) (by decide +kernel)
  have hends : EndsDeclaration " note owner CDATA #REQUIRED kind (a|b) #IMPLIED>".toList :=
    endsDeclaration_iff.mpr (by decide)
  have htiled := tiled_note.append (.of_markup (.declared .attributes hends))
  rw [DtdDeclared.piece, DtdDeclared.scan, hrun] at htiled
  exact read_eq_ok_iff.mpr ⟨_, htiled, rfl⟩

/-- A note whose attributes go by their own names. -/
def plainNote : ElementNode :=
  ⟨0, none, ⟨0, 22⟩, ⟨⟨none, "note"⟩, none,
    [⟨"kind", "c", ⟨6, 10⟩, ⟨12, 13⟩⟩, ⟨"x", "1", ⟨15, 16⟩, ⟨18, 19⟩⟩], [], some 21, none, true⟩⟩

theorem attributeViolations_plainNote :
    (Tree.parse "<note kind='c' x='1'/>".toList).root? = some plainNote ∧
      attributeViolations (.dtd ⟨[ownedNote]⟩ ownedNote) plainNote =
      ownedNote.violationsByName plainNote ∧
      (ownedNote.violationsByName plainNote).map Violation.problem =
        [.requiredAttributeMissing, .attributeValueInvalid, .attributeNotAllowed] := by
  have hnone : ∀ a ∈ plainNote.element.attributes, ¬ownedNote.StandsIn plainNote a := by
    simp only [StandsIn]
    decide +kernel
  refine ⟨by decide +kernel, ?_, by decide +kernel⟩
  exact (attributeViolations_eq_iff read_ownedNoteText (List.mem_singleton.mpr rfl) plainNote).mpr
    hnone

/-- A declaration of a namespace is taken for the owner of a note. -/
theorem attributeViolations_standsIn :
    ∃ n, (Tree.parse "<note xmlns:owner='urn:o'/>".toList).root? = some n ∧
      Dtd.read ownedNoteText = .ok ⟨[ownedNote]⟩ ∧
      attributeViolations (.dtd ⟨[ownedNote]⟩ ownedNote) n = [] ∧
      ownedNote.violationsByName n = [missingViolation n ⟨"owner", .cdata, .required⟩] := by
  refine ⟨⟨0, none, ⟨0, 27⟩, ⟨⟨none, "note"⟩, none,
    [⟨"xmlns:owner", "urn:o", ⟨6, 17⟩, ⟨19, 24⟩⟩], [], some 26, none, true⟩⟩, by decide +kernel,
    read_ownedNoteText, rfl, rfl⟩

end Dtd

end XmlAdvisor
