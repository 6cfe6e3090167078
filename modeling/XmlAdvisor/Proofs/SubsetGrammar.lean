import Mathlib.Order.CompletePartialOrder
import Mathlib.Order.ConditionallyCompleteLattice.Basic
import XmlAdvisor.Proofs.DefinitionMarkup

/-!
# The markup of an external subset

What XML's grammar lets stand in a definition outside of the document, as languages over characters:
the declarations of elements, attributes, entities and notations, comments, instructions, and
references to parameter entities.  References may stand in a declaration as well, wherever there is
no literal.

* `Subset.SubsetDeclaration.spellings` — the four kinds of declarations, as XML writes them.
* `Subset.referring` — what stands behind the keyword of a declaration in which a parameter entity
  is referred to.
* `Subset.inside` — the texts that leave a declaration where it is: literals in pairs of marks, and
  no `>` outside of them.  All productions but the last `>` are of this kind.
* `endsDeclaration_of_mem` — so a declaration ends where its production does.
* **`exists_isMarkup_of_mem`** — each of these texts is one markup.

**Generous productions.**  A literal may hold any characters but its own mark, whether it is a
value, an identifier or the text of an entity; and the target of an instruction may be any name, so
that the declaration of the encoding, which begins a definition, is an instruction too.
-/

namespace XmlAdvisor

open scoped Computability

namespace Subset

open Spelling (text blanks someBlanks)

/-! ## The smallest parts -/

/-- A character of a kind, behind a fixed text. -/
def one (front : List Char) (P : Char → Prop) : Language Char :=
  {w | ∃ c, P c ∧ w = front ++ [c]}

/-- Texts that do not hold a mark. -/
def without (mark : String) : Language Char :=
  {w | ¬mark.toList <:+: w}

/-- A name token: some characters of names. -/
def nameToken : Language Char :=
  {w | w ≠ [] ∧ ∀ c ∈ w, isNameChar c = true}

/-- A name, which is a name token that begins as names do. -/
def name : Language Char :=
  {w | w ∈ nameToken ∧ w.head?.any isNameStart = true}

/-- A literal between quotation marks of either kind, which does not hold its own mark. -/
def literal : Language Char :=
  {w | ∃ mark value, (mark = '"' ∨ mark = '\'') ∧ mark ∉ value ∧ w = mark :: (value ++ [mark])}

/-- A reference to a parameter entity. -/
def reference : Language Char :=
  text "%" * (name * text ";")

/-- Items with a separator between them, in parentheses. -/
def group (sep : String) (item : Language Char) : Language Char :=
  text "(" * (blanks * (item * ((blanks * (text sep * (blanks * item)))∗ * (blanks * text ")"))))

/-! ## Declarations -/

/-- A sign for how often a part may stand, or none. -/
def occurrence : Language Char :=
  1 + text "?" + text "*" + text "+"

/-- A sequence or a choice of particles. -/
def groups (particle : Language Char) : Language Char :=
  group "," particle + group "|" particle

/-- A particle with at most so many groups inside one another. -/
def particleWithin : (depth : Nat) → Language Char
  | 0 => name * occurrence
  | depth + 1 => (name + groups (particleWithin depth)) * occurrence

/-- Content of elements alone. -/
def elementContent : Language Char :=
  {w | ∃ depth, w ∈ groups (particleWithin depth) * occurrence}

/-- Content of text and perhaps of elements among it. -/
def mixedContent : Language Char :=
  text "(" * (blanks * (text "#PCDATA" *
    ((blanks * (text "|" * (blanks * name)))∗ * (blanks * text ")*") + blanks * text ")")))

def contentSpec : Language Char :=
  text "EMPTY" + text "ANY" + mixedContent + elementContent

def attributeType : Language Char :=
  text "CDATA" + text "ID" + text "IDREF" + text "IDREFS" + text "ENTITY" + text "ENTITIES" +
    text "NMTOKEN" + text "NMTOKENS" + text "NOTATION" * (someBlanks * group "|" name) +
    group "|" nameToken

def attributeDefault : Language Char :=
  text "#REQUIRED" + text "#IMPLIED" + text "#FIXED" * (someBlanks * literal) + literal

def attributeDefinition : Language Char :=
  someBlanks * (name * (someBlanks * (attributeType * (someBlanks * attributeDefault))))

/-- Where the text of an entity is to be found. -/
def externalId : Language Char :=
  text "SYSTEM" * (someBlanks * literal) +
    text "PUBLIC" * (someBlanks * (literal * (someBlanks * literal)))

/-- What a general entity stands for. -/
def entityText : Language Char :=
  literal + externalId + externalId * (someBlanks * (text "NDATA" * (someBlanks * name)))

/-- The kinds of declarations. -/
inductive SubsetDeclaration
  | element
  | attributes
  | entity
  | symbol
  deriving DecidableEq

namespace SubsetDeclaration

def keyword : SubsetDeclaration → String
  | .element => "<!ELEMENT"
  | .attributes => "<!ATTLIST"
  | .entity => "<!ENTITY"
  | .symbol => "<!NOTATION"

/-- What stands between the keyword of a declaration and the `>` that ends it. -/
def body : SubsetDeclaration → Language Char
  | .element => someBlanks * (name * (someBlanks * (contentSpec * blanks)))
  | .attributes => someBlanks * (name * (attributeDefinition∗ * blanks))
  | .entity =>
    someBlanks * (name * (someBlanks * (entityText * blanks))) +
      someBlanks * (text "%" * (someBlanks *
        (name * (someBlanks * ((literal + externalId) * blanks)))))
  | .symbol =>
    someBlanks * (name * (someBlanks *
      ((externalId + text "PUBLIC" * (someBlanks * literal)) * blanks)))

end SubsetDeclaration

/-- Whatever can stand in a declaration: literals, and other characters than marks and `>`. -/
def tokens : Language Char :=
  (one [] IsPlain + literal)∗

/-- What stands behind a keyword if the declaration is put together from parameter entities. -/
def referring : Language Char :=
  tokens * (reference * tokens)

/-- A declaration from its keyword on. -/
def SubsetDeclaration.spellings (d : SubsetDeclaration) : Language Char :=
  text d.keyword * ((d.body + referring) * text ">")

/-! ## Other markup -/

/-- The text of a comment, in which no two hyphens stand side by side, nor one at its end. -/
def commentBody : Language Char :=
  (one [] (· ≠ '-') + one ['-'] (· ≠ '-'))∗

/-- A target, and what is said to it. -/
def instructionBody : Language Char :=
  name * (1 + someBlanks * without "?>")

/-- The markup of an external subset that is no conditional section. -/
def markup : Language Char :=
  SubsetDeclaration.element.spellings + SubsetDeclaration.attributes.spellings +
    SubsetDeclaration.entity.spellings + SubsetDeclaration.symbol.spellings +
    text "<!--" * (commentBody * text "-->") + text "<?" * (instructionBody * text "?>") + reference

/-! ## Where declarations end -/

/-- The texts that leave a declaration where it is. -/
def inside : Language Char :=
  {w | ∀ rest, skipDeclaration? none (w ++ rest) = skipDeclaration? none rest}

section Inside

variable {l k : Language Char} {s : String}

lemma mul_le_inside (hl : l ≤ inside) (hk : k ≤ inside) : l * k ≤ inside := by
  intro w hw rest
  obtain ⟨u, hu, v, hv, rfl⟩ := Language.mem_mul.mp hw
  rw [List.append_assoc, hl hu, hk hv]

lemma add_le_inside (hl : l ≤ inside) (hk : k ≤ inside) : l + k ≤ inside :=
  sup_le hl hk

lemma one_le_inside : 1 ≤ inside := by
  intro w hw rest
  rw [(Language.mem_one w).mp hw, List.nil_append]

lemma kstar_le_inside (hl : l ≤ inside) : l∗ ≤ inside := by
  intro w hw rest
  obtain ⟨parts, rfl, hparts⟩ := Language.mem_kstar.mp hw
  clear hw
  induction parts with
  | nil => rfl
  | cons u parts ih =>
      rw [List.flatten_cons, List.append_assoc, hl (hparts u (List.mem_cons_self ..))]
      exact ih fun v hv => hparts v (List.mem_cons_of_mem u hv)

lemma mem_inside_of_plain {w : List Char} (h : ∀ c ∈ w, IsPlain c) : w ∈ inside :=
  skipDeclaration?_plain h

lemma text_le_inside (h : IsPlainText s) : text s ≤ inside := by
  rintro w rfl
  exact mem_inside_of_plain h

lemma blanks_le_inside : blanks ≤ inside :=
  fun _ hw => mem_inside_of_plain fun c hc => DtdScan.isPlain_of_isXmlSpace (hw c hc)

lemma someBlanks_le_inside : someBlanks ≤ inside :=
  fun _ hw => blanks_le_inside hw.2

lemma isPlain_of_isNameChar {c : Char} (h : isNameChar c = true) : IsPlain c :=
  ⟨ne_of_isNameChar h (by decide), ne_of_isNameChar h (by decide), ne_of_isNameChar h (by decide)⟩

lemma nameToken_le_inside : nameToken ≤ inside :=
  fun _ hw => mem_inside_of_plain fun c hc => isPlain_of_isNameChar (hw.2 c hc)

lemma name_le_inside : name ≤ inside :=
  fun _ hw => nameToken_le_inside hw.1

lemma literal_le_inside : literal ≤ inside := by
  rintro w ⟨mark, value, hmark, hfree, rfl⟩ rest
  rw [List.cons_append, List.append_assoc, DtdScan.skipDeclaration?_mark hmark]
  exact skipDeclaration?_value hfree rest

lemma tokens_le_inside : tokens ≤ inside := by
  refine kstar_le_inside (add_le_inside ?_ literal_le_inside)
  rintro w ⟨c, hc, rfl⟩
  exact mem_inside_of_plain fun d hd => List.mem_singleton.mp hd ▸ hc

lemma reference_le_inside : reference ≤ inside :=
  mul_le_inside (text_le_inside (by decide))
    (mul_le_inside name_le_inside (text_le_inside (by decide)))

/-! ### Productions -/

lemma group_le_inside (hs : IsPlainText s) (hl : l ≤ inside) : group s l ≤ inside :=
  mul_le_inside (text_le_inside (by decide)) <| mul_le_inside blanks_le_inside <|
    mul_le_inside hl <|
    mul_le_inside (kstar_le_inside
      (mul_le_inside blanks_le_inside (mul_le_inside (text_le_inside hs)
      (mul_le_inside blanks_le_inside hl))))
      (mul_le_inside blanks_le_inside (text_le_inside (by decide)))

lemma groups_le_inside (hl : l ≤ inside) : groups l ≤ inside :=
  add_le_inside (group_le_inside (by decide) hl) (group_le_inside (by decide) hl)

lemma occurrence_le_inside : occurrence ≤ inside :=
  add_le_inside (add_le_inside (add_le_inside one_le_inside (text_le_inside (by decide)))
    (text_le_inside (by decide))) (text_le_inside (by decide))

lemma particleWithin_le_inside (depth : Nat) : particleWithin depth ≤ inside := by
  induction depth with
  | zero => exact mul_le_inside name_le_inside occurrence_le_inside
  | succ depth ih =>
      exact mul_le_inside (add_le_inside name_le_inside (groups_le_inside ih)) occurrence_le_inside

lemma elementContent_le_inside : elementContent ≤ inside := by
  rintro w ⟨depth, hw⟩
  exact mul_le_inside (groups_le_inside (particleWithin_le_inside depth)) occurrence_le_inside hw

lemma mixedContent_le_inside : mixedContent ≤ inside := by
  have hname : blanks * (text "|" * (blanks * name)) ≤ inside :=
    mul_le_inside blanks_le_inside
      (mul_le_inside (text_le_inside (by decide)) (mul_le_inside blanks_le_inside name_le_inside))
  have hclosed {s : String} (hs : IsPlainText s) : blanks * text s ≤ inside :=
    mul_le_inside blanks_le_inside (text_le_inside hs)
  exact mul_le_inside (text_le_inside (by decide)) <| mul_le_inside blanks_le_inside <|
    mul_le_inside (text_le_inside (by decide)) <|
      add_le_inside (mul_le_inside (kstar_le_inside hname) (hclosed (by decide)))
      (hclosed (by decide))

lemma contentSpec_le_inside : contentSpec ≤ inside :=
  add_le_inside (add_le_inside
    (add_le_inside (text_le_inside (by decide)) (text_le_inside (by decide)))
    mixedContent_le_inside) elementContent_le_inside

lemma attributeType_le_inside : attributeType ≤ inside := by
  refine add_le_inside (add_le_inside ?_ ?_) (group_le_inside (by decide) nameToken_le_inside)
  · repeat' apply add_le_inside
    all_goals exact text_le_inside (by decide)
  · exact mul_le_inside (text_le_inside (by decide))
      (mul_le_inside someBlanks_le_inside (group_le_inside (by decide) name_le_inside))

lemma attributeDefault_le_inside : attributeDefault ≤ inside :=
  add_le_inside (add_le_inside
    (add_le_inside (text_le_inside (by decide)) (text_le_inside (by decide)))
    (mul_le_inside (text_le_inside (by decide))
      (mul_le_inside someBlanks_le_inside literal_le_inside)))
    literal_le_inside

lemma attributeDefinition_le_inside : attributeDefinition ≤ inside :=
  mul_le_inside someBlanks_le_inside <| mul_le_inside name_le_inside <|
    mul_le_inside someBlanks_le_inside <| mul_le_inside attributeType_le_inside <|
      mul_le_inside someBlanks_le_inside attributeDefault_le_inside

lemma publicId_le_inside : text "PUBLIC" * (someBlanks * literal) ≤ inside :=
  mul_le_inside (text_le_inside (by decide)) (mul_le_inside someBlanks_le_inside literal_le_inside)

lemma externalId_le_inside : externalId ≤ inside :=
  add_le_inside
    (mul_le_inside (text_le_inside (by decide))
      (mul_le_inside someBlanks_le_inside literal_le_inside))
    (mul_le_inside (text_le_inside (by decide)) (mul_le_inside someBlanks_le_inside
      (mul_le_inside literal_le_inside (mul_le_inside someBlanks_le_inside literal_le_inside))))

lemma entityText_le_inside : entityText ≤ inside :=
  add_le_inside (add_le_inside literal_le_inside externalId_le_inside)
    (mul_le_inside externalId_le_inside (mul_le_inside someBlanks_le_inside
      (mul_le_inside (text_le_inside (by decide))
        (mul_le_inside someBlanks_le_inside name_le_inside))))

lemma referring_le_inside : referring ≤ inside :=
  mul_le_inside tokens_le_inside (mul_le_inside reference_le_inside tokens_le_inside)

/-- What is named by a declaration, and what is said of it. -/
lemma named_le_inside (hl : l ≤ inside) :
    someBlanks * (name * (someBlanks * (l * blanks))) ≤ inside :=
  mul_le_inside someBlanks_le_inside <| mul_le_inside name_le_inside <|
    mul_le_inside someBlanks_le_inside (mul_le_inside hl blanks_le_inside)

lemma body_le_inside (d : SubsetDeclaration) : d.body ≤ inside := by
  cases d with
  | element => exact named_le_inside contentSpec_le_inside
  | attributes =>
      exact mul_le_inside someBlanks_le_inside (mul_le_inside name_le_inside
        (mul_le_inside (kstar_le_inside attributeDefinition_le_inside) blanks_le_inside))
  | entity =>
      exact add_le_inside (named_le_inside entityText_le_inside)
        (mul_le_inside someBlanks_le_inside (mul_le_inside (text_le_inside (by decide))
          (named_le_inside (add_le_inside literal_le_inside externalId_le_inside))))
  | symbol => exact named_le_inside (add_le_inside externalId_le_inside publicId_le_inside)

end Inside

/-- A declaration ends where its production does. -/
lemma endsDeclaration_of_mem {l : Language Char} (hl : l ≤ inside) {w : List Char}
    (hw : w ∈ l * text ">") : EndsDeclaration w := by
  obtain ⟨u, hu, v, rfl, rfl⟩ := Language.mem_mul.mp hw
  exact endsDeclaration_iff.mpr (hl hu _)

/-! ## Where other markup ends -/

/-- An end mark whose last character stands nowhere else in it ends a text that does not hold it. -/
lemma stopsAt_of_free (front : List Char) {x : Char} (hx : x ∉ front) {body : List Char}
    (h : ¬front ++ [x] <:+: body) : StopsAt (front ++ [x]) body := by
  intro before after hsplit
  rcases List.append_eq_append_iff.mp hsplit with ⟨overlap, -, hoverlap⟩ | ⟨behind, rfl, hbehind⟩
  · have hlength := congrArg List.length hoverlap
    simp only [List.length_append] at hlength
    exact List.length_eq_zero_iff.mp (by omega)
  · -- the mark begins in the body, so all of it stands there or it overlaps with the one behind
    rcases List.append_eq_append_iff.mp hbehind with ⟨overlap, rfl, -⟩ | ⟨overlap, hmark, hrest⟩
    · exact absurd ⟨before, overlap, by simp⟩ h
    · rcases List.eq_nil_or_concat' overlap with rfl | ⟨overlap, y, rfl⟩
      · rw [List.append_nil] at hmark
        exact absurd ⟨before, [], by simp [hmark]⟩ h
      · rcases List.eq_nil_or_concat' after with rfl | ⟨after, z, rfl⟩
        · rfl
        · rw [← List.append_assoc] at hmark hrest
          obtain ⟨-, hy⟩ := List.append_inj' hmark rfl
          obtain ⟨hfront, -⟩ := List.append_inj' hrest rfl
          obtain rfl : x = y := List.singleton_inj.mp hy
          exact absurd (hfront ▸ by simp) hx

lemma stopsAt_comment {body : List Char} (h : body ∈ commentBody) : StopsAt "-->".toList body := by
  obtain ⟨parts, rfl, hparts⟩ := Language.mem_kstar.mp h
  clear h
  induction parts with
  | nil => exact stopsAt_nil _
  | cons part parts ih =>
      have hmore := ih fun v hv => hparts v (List.mem_cons_of_mem part hv)
      have hother {c : Char} (hc : c ≠ '-') (cs : List Char) : ¬"-->".toList <+: c :: cs :=
        fun hbegins => hc (List.cons_prefix_cons.mp hbegins).1.symm
      rw [List.flatten_cons]
      rcases hparts part (List.mem_cons_self ..) with ⟨c, hc, rfl⟩ | ⟨c, hc, rfl⟩
      · exact stopsAt_cons.mpr ⟨hother hc _, hmore⟩
      · refine stopsAt_cons.mpr ⟨?_, stopsAt_cons.mpr ⟨hother hc _, hmore⟩⟩
        intro hbegins
        exact hc (List.cons_prefix_cons.mp (List.cons_prefix_cons.mp hbegins).2).1.symm

/-- A text without a character does not hold a mark with it. -/
lemma not_infix_of_notMem {mark w : List Char} {x : Char} (hx : x ∈ mark) (hw : x ∉ w) :
    ¬mark <:+: w :=
  fun h => hw (h.subset hx)

/-- A mark stands in neither of two texts nor across them, if the first ends in a character that is
none of those that stand in the mark before another. -/
lemma not_infix_append {mark u v : List Char} (hu : ¬mark <:+: u) (hv : ¬mark <:+: v)
    (hlast : ∀ c ∈ u.getLast?, c ∉ mark.dropLast) : ¬mark <:+: u ++ v := by
  rintro ⟨before, after, hsplit⟩
  rw [List.append_assoc] at hsplit
  rcases List.append_eq_append_iff.mp hsplit with ⟨mid, rfl, hmid⟩ | ⟨mid, rfl, hmid⟩
  · rcases List.append_eq_append_iff.mp hmid with ⟨rest, rfl, -⟩ | ⟨rest, rfl, -⟩
    · exact hu ⟨before, rest, by simp⟩
    · rcases List.eq_nil_or_concat' mid with rfl | ⟨mid, c, rfl⟩
      · exact hv ⟨[], after, by simpa using hmid⟩
      · rcases List.eq_nil_or_concat' rest with rfl | ⟨rest, d, rfl⟩
        · exact hu ⟨before, [], by simp⟩
        · refine hlast c (by simp) ?_
          rw [← List.append_assoc, List.dropLast_concat]
          simp
  · exact hv ⟨mid, after, by rw [List.append_assoc]; exact hmid.symm⟩

lemma notMem_of_mem_name {w : List Char} {x : Char} (hw : w ∈ name) (hx : isNameChar x = false) :
    x ∉ w := by
  intro hmem
  have hchar := hw.1.2 x hmem
  rw [hx] at hchar
  cases hchar

lemma stopsAt_instruction {body : List Char} (h : body ∈ instructionBody) :
    StopsAt "?>".toList body := by
  have htarget {w : List Char} (hw : w ∈ name) : '?' ∉ w := notMem_of_mem_name hw (by decide)
  refine stopsAt_of_free ['?'] (by decide : '>' ∉ ['?']) ?_
  obtain ⟨target, ht, said, hsaid, rfl⟩ := Language.mem_mul.mp h
  have hnone : ¬"?>".toList <:+: target := not_infix_of_notMem (by decide) (htarget ht)
  rcases hsaid with hsaid | hsaid
  · rw [(Language.mem_one said).mp hsaid, List.append_nil]
    exact hnone
  · obtain ⟨b, ⟨-, hb⟩, more, hmore, rfl⟩ := Language.mem_mul.mp hsaid
    have hblank : '?' ∉ b := fun hmem => absurd (hb _ hmem) (by decide)
    have hfree : '?' ∉ target ++ b := fun hmem =>
      (List.mem_append.mp hmem).elim (htarget ht) hblank
    rw [← List.append_assoc]
    refine not_infix_append (not_infix_of_notMem (by decide) hfree) hmore fun c hc hmark => ?_
    rw [List.mem_singleton.mp hmark] at hc
    exact hfree (List.mem_of_getLast? hc)

lemma stopsAt_reference {body : List Char} (h : body ∈ name) : StopsAt ";".toList body :=
  stopsAt_of_free [] List.not_mem_nil
    (not_infix_of_notMem (x := ';') (by decide) (notMem_of_mem_name h (by decide)))

/-! ## Markup -/

/-- Declarations of entities and notations are none that are read. -/
lemma exists_isMarkup_of_other {s : String} {inner : List Char} (hplain : IsPlainText s)
    (hother : IsOther (s.toList ++ inner)) (hends : EndsDeclaration inner) :
    ∃ p, IsMarkup ("<!".toList ++ (s.toList ++ inner)) p := by
  refine ⟨_, .other hother ?_⟩
  rw [endsDeclaration_iff, skipDeclaration?_plain hplain]
  exact endsDeclaration_iff.mp hends

lemma exists_isMarkup_of_declaration (d : SubsetDeclaration) {w : List Char}
    (hw : w ∈ d.spellings) :
    ∃ p, IsMarkup w p := by
  obtain ⟨u, rfl, inner, hinner, rfl⟩ := Language.mem_mul.mp hw
  have hends := endsDeclaration_of_mem (add_le_inside (body_le_inside d) referring_le_inside) hinner
  cases d with
  | element => exact ⟨_, .declared .element hends⟩
  | attributes => exact ⟨_, .declared .attributes hends⟩
  | entity => exact exists_isMarkup_of_other (s := "ENTITY") (by decide) (by simp [IsOther]) hends
  | symbol => exact exists_isMarkup_of_other (s := "NOTATION") (by decide) (by simp [IsOther]) hends

lemma exists_isMarkup_of_enclosed (e : DtdEnclosure) {l : Language Char}
    (hl : ∀ body ∈ l, StopsAt e.ending.toList body) {w : List Char}
    (hw : w ∈ text e.opening * (l * text e.ending)) : ∃ p, IsMarkup w p := by
  obtain ⟨u, rfl, v, hv, rfl⟩ := Language.mem_mul.mp hw
  obtain ⟨body, hbody, u, rfl, rfl⟩ := Language.mem_mul.mp hv
  exact ⟨_, .enclosed e (hl body hbody)⟩

/-- **Each markup of an external subset is one markup of a definition.** -/
theorem exists_isMarkup_of_mem {w : List Char} (hw : w ∈ markup) : ∃ p, IsMarkup w p := by
  rcases hw with (((((hw | hw) | hw) | hw) | hw) | hw) | hw
  · exact exists_isMarkup_of_declaration .element hw
  · exact exists_isMarkup_of_declaration .attributes hw
  · exact exists_isMarkup_of_declaration .entity hw
  · exact exists_isMarkup_of_declaration .symbol hw
  · exact exists_isMarkup_of_enclosed .comment (fun _ => stopsAt_comment) hw
  · exact exists_isMarkup_of_enclosed .instruction (fun _ => stopsAt_instruction) hw
  · exact exists_isMarkup_of_enclosed .entityReference (fun _ => stopsAt_reference) hw

end Subset

end XmlAdvisor
