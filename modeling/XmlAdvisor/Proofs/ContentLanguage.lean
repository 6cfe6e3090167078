import Mathlib.Order.FixedPoints
import XmlAdvisor.Grammar.Declaration
import XmlAdvisor.Proofs.Words

/-!
# The language of a content model

What a pattern of a schema means, said without derivatives: the set of words that the children of an
element may spell.  Definitions may refer to each other in circles, so the languages of all patterns
are given at once, as the least solution of one equation per pattern (`contentStep`).

* `Schema.content` — the least solution, over any alphabet.  What a child element spells is left
  open: `letters` gives the words of each element pattern.
* `Schema.childNames` — the words over expanded names; an element pattern spells any one name of its
  name class.
* `Schema.childPatterns` — the words over the numbers of element patterns, each spelling itself.
* **`mem_childNames_iff`** — a word of names is allowed exactly if patterns can be assigned to its
  names so that they form a word of patterns.

Both languages come from the same equations, so what holds of a solution is proved once.
-/

namespace XmlAdvisor

open scoped Computability

/-- The namespace, empty for none, and the local name of an element. -/
def ElementNode.expandedName (e : ElementNode) : String × String :=
  (e.element.namespaceUri.getD "", e.element.localName)

namespace Schema

variable {α β : Type} (s : Schema)

/-! ## The equations of a schema -/

/-- The language of a pattern, given the languages of all patterns.  An element spells its letters;
everything that is no child element counts as the empty word. -/
def contentStep (letters meaning : Nat → Language α) (id : Nat) : Language α :=
  match s.pattern id with
  | .element .. => letters id
  | .empty | .text | .data _ | .value _ | .list _ | .attribute .. => 1
  | .notAllowed => 0
  | .choice members => (members.map meaning).sum
  | .group members => (members.map meaning).prod
  | .interleave members => (members.map meaning).foldl shuffle 1
  | .oneOrMore body => meaning body * (meaning body)∗
  | .ref d =>
    match s.body? d with
    | some body => meaning body
    | none => 0

lemma sum_mono {f g : Nat → Language α} (h : f ≤ g) :
    ∀ ids : List Nat, (ids.map f).sum ≤ (ids.map g).sum
  | [] => le_refl _
  | id :: ids => by
      simp only [List.map_cons, List.sum_cons]
      exact add_le_add (h id) (sum_mono h ids)

lemma prod_mono {f g : Nat → Language α} (h : f ≤ g) :
    ∀ ids : List Nat, (ids.map f).prod ≤ (ids.map g).prod
  | [] => le_refl _
  | id :: ids => by
      simp only [List.map_cons, List.prod_cons]
      exact mul_le_mul' (h id) (prod_mono h ids)

lemma foldl_shuffle_mono {f g : Nat → Language α} (h : f ≤ g) :
    ∀ (ids : List Nat) {l m : Language α}, l ≤ m →
      (ids.map f).foldl shuffle l ≤ (ids.map g).foldl shuffle m
  | [], _, _, hlm => hlm
  | id :: ids, _, _, hlm => foldl_shuffle_mono h ids (shuffle_mono hlm (h id))

/-- Larger languages of the members make a larger language of the pattern. -/
lemma contentStep_mono (letters : Nat → Language α) : Monotone (s.contentStep letters) := by
  intro f g h id
  unfold contentStep
  cases s.pattern id with
  | choice members => exact sum_mono h members
  | group members => exact prod_mono h members
  | interleave members => exact foldl_shuffle_mono h members (le_refl _)
  | oneOrMore body => exact mul_le_mul' (h body) (kstar_mono (h body))
  | ref d =>
      dsimp only
      cases s.body? d with
      | none => exact le_refl _
      | some body => exact h body
  | _ => exact le_refl _

/-- The language of each pattern: the least solution of the equations. -/
def content (letters : Nat → Language α) : Nat → Language α :=
  OrderHom.lfp ⟨s.contentStep letters, s.contentStep_mono letters⟩

/-- The languages solve the equations. -/
lemma content_eq (letters : Nat → Language α) (id : Nat) :
    s.content letters id = s.contentStep letters (s.content letters) id :=
  congrFun (OrderHom.map_lfp ⟨s.contentStep letters, s.contentStep_mono letters⟩).symm id

/-- Induction over words of all patterns at once: whatever is closed under the equations holds every
word. -/
lemma content_le {letters : Nat → Language α} (bound : Nat → Language α)
    (h : ∀ id, s.contentStep letters bound id ≤ bound id) (id : Nat) :
    s.content letters id ≤ bound id := by
  have hle : s.content letters ≤ bound :=
    OrderHom.lfp_le ⟨s.contentStep letters, s.contentStep_mono letters⟩ h
  exact hle id

/-! ## Words of names and words of patterns -/

/-- Whether a name belongs to the name class of an element pattern. -/
def admits (s : Schema) (id : Nat) (n : String × String) : Bool :=
  (s.elementName? id).any fun c => c.contains n.1 n.2

/-- The one name of an element pattern that has only one. -/
def simpleName? (s : Schema) (id : Nat) : Option (String × String) :=
  (s.elementName? id).bind NameClass.simple?

lemma admits_iff_of_simpleName? {id : Nat} {n m : String × String} (h : s.simpleName? id = some m) :
    s.admits id n = true ↔ n = m := by
  obtain ⟨c, hc, hsimple⟩ := Option.bind_eq_some_iff.mp h
  rw [admits, hc, Option.any_some, NameClass.contains_of_simple? hsimple, Bool.and_eq_true,
    beq_iff_eq, beq_iff_eq, Prod.ext_iff, eq_comm, @eq_comm _ m.2]

/-- The words over names that the children of an element may spell. -/
def childNames : Nat → Language (String × String) :=
  s.content fun id => {w | ∃ n, s.admits id n = true ∧ w = [n]}

/-- The words over element patterns that the children of an element may be matched with. -/
def childPatterns : Nat → Language Nat :=
  s.content fun id => {[id]}

/-! ## From words of patterns to words of names -/

/-- Solving the equations commutes with relabelling. -/
lemma relabel_contentStep (R : α → β → Prop) (letters meaning : Nat → Language α) (id : Nat) :
    relabel R (s.contentStep letters meaning id)
      = s.contentStep (fun p => relabel R (letters p)) (fun p => relabel R (meaning p)) id := by
  unfold contentStep
  cases s.pattern id with
  | element name content documentation => rfl
  | notAllowed => exact relabel_zero
  | choice members => simp only [relabel_sum, List.map_map, Function.comp_def]
  | group members => simp only [relabel_prod, List.map_map, Function.comp_def]
  | interleave members =>
      simp only [relabel_foldl_shuffle, relabel_one, List.map_map, Function.comp_def]
  | oneOrMore body => simp only [relabel_mul, relabel_kstar]
  | ref d =>
      dsimp only
      cases s.body? d with
      | none => exact relabel_zero
      | some body => rfl
  | _ => exact relabel_one

/-- The least solution over other letters is the relabelled least solution. -/
lemma relabel_content (R : α → β → Prop) (letters : Nat → Language α) (id : Nat) :
    relabel R (s.content letters id) = s.content (fun p => relabel R (letters p)) id := by
  apply le_antisymm
  · -- what can only be relabelled into the solution is closed under the equations
    rw [relabel_le_iff]
    refine s.content_le (fun p => unlabel R (s.content (fun p => relabel R (letters p)) p))
      (fun p => ?_) id
    rw [← relabel_le_iff, relabel_contentStep, content_eq]
    exact s.contentStep_mono _ (fun q => relabel_le_iff.mpr (le_refl _)) p
  · refine s.content_le (fun p => relabel R (s.content letters p)) (fun p => ?_) id
    rw [← relabel_contentStep, ← content_eq]

/-- A word of names is allowed exactly if patterns can be assigned to its names so that they form a
word of patterns. -/
theorem mem_childNames_iff {id : Nat} {w : List (String × String)} :
    w ∈ s.childNames id ↔
      ∃ ids ∈ s.childPatterns id, List.Forall₂ (fun p n => s.admits p n = true) ids w := by
  have hletters : (fun p => relabel (fun p n => s.admits p n = true) {[p]})
      = fun p => {w | ∃ n, s.admits p n = true ∧ w = [n]} := by
    funext p
    ext w
    constructor
    · rintro ⟨v, hv, h⟩
      cases (show v = [p] from hv)
      obtain ⟨n, _, hn, hnil, rfl⟩ := List.forall₂_cons_left_iff.mp h
      cases hnil
      exact ⟨n, hn, rfl⟩
    · rintro ⟨n, hn, rfl⟩
      exact ⟨[p], rfl, .cons hn .nil⟩
  rw [childNames, ← hletters, ← relabel_content]
  rfl

end Schema

end XmlAdvisor
