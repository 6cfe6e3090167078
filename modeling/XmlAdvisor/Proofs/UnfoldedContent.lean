import XmlAdvisor.Proofs.ContentLanguage
import XmlAdvisor.Proofs.NextElements
import XmlAdvisor.Proofs.Reachability
import Mathlib.Data.List.Perm.Subperm

/-!
# Content without choices

A content model without choices asks for all that is in it, so it can be unfolded: the elements in
it stand in a list, each as often as the model refers to it.  A walk finds each of them only once.

* `Schema.Unfolds` — what patterns are unfolded to.
* `Schema.Unfolds.mem_iff` — the elements are those that the patterns lead to.
* **`Schema.Unfolds.requiredElementPatterns_eq`** — the elements that are required are those of the
  list, each where it stands first.
* `Schema.Unfolds.mem_childPatterns`, `Schema.Unfolds.subperm` — the list is a word of the content
  model, and every word of it has each element at least as often as the list.
* **`Schema.Unfolds.names_mem_childNames_iff`** — the elements that are required are complete
  content exactly if each of them is met once.
-/

namespace XmlAdvisor

open scoped Computability

/-! ## Lists in which each item is put once -/

namespace Schema

lemma mem_foldl_addOnce {ids found : List Nat} {p : Nat} :
    p ∈ ids.foldl addOnce found ↔ p ∈ found ∨ p ∈ ids := by
  induction ids generalizing found with
  | nil => simp
  | cons id ids ih => rw [List.foldl_cons, ih, mem_addOnce, List.mem_cons, or_assoc]

lemma addOnce_of_mem {found : List Nat} {id : Nat} (h : id ∈ found) : addOnce found id = found :=
  if_pos (List.contains_iff_mem.mpr h)

lemma addOnce_of_notMem {found : List Nat} {id : Nat} (h : id ∉ found) :
    addOnce found id = found ++ [id] :=
  if_neg fun hcontains => h (List.contains_iff_mem.mp hcontains)

lemma foldl_addOnce_of_subset {ids found : List Nat} (h : ids ⊆ found) :
    ids.foldl addOnce found = found := by
  induction ids with
  | nil => rfl
  | cons id ids ih =>
      rw [List.foldl_cons, addOnce_of_mem (h List.mem_cons_self)]
      exact ih fun p hp => h (List.mem_cons_of_mem id hp)

lemma foldl_addOnce_of_nodup {ids found : List Nat} (h : (found ++ ids).Nodup) :
    ids.foldl addOnce found = found ++ ids := by
  induction ids generalizing found with
  | nil => exact (List.append_nil found).symm
  | cons id ids ih =>
      have hnew : id ∉ found := by
        intro hmem
        exact (List.nodup_append.mp h).2.2 id hmem id List.mem_cons_self rfl
      rw [List.append_cons] at h
      rw [List.foldl_cons, addOnce_of_notMem hnew, ih h, ← List.append_cons]

lemma nodup_foldl_addOnce {ids found : List Nat} (h : found.Nodup) :
    (ids.foldl addOnce found).Nodup := by
  induction ids generalizing found with
  | nil => exact h
  | cons id ids ih =>
      refine ih ?_
      by_cases hmem : id ∈ found
      · rwa [addOnce_of_mem hmem]
      · rw [addOnce_of_notMem hmem, List.nodup_append]
        refine ⟨h, List.nodup_singleton id, fun p hp q hq heq => hmem ?_⟩
        rwa [← List.mem_singleton.mp hq, ← heq]

/-! ## Unfolding -/

/-- Whether a pattern is none of an element and asks for all of its parts. -/
def isPlain (s : Schema) (id : Nat) : Bool :=
  match s.pattern id with
  | .element .. | .choice _ | .notAllowed => false
  | .ref d => (s.body? d).isSome
  | _ => true

/-- What patterns are unfolded to, one after another: the elements in them, each as often as it is
met. There is a choice in none of them, and nothing that leads back to itself. -/
inductive Unfolds (s : Schema) : List Nat → List Nat → Prop
  | nil : s.Unfolds [] []
  | element {id : Nat} {more ids : List Nat} (h : s.isElement id = true)
      (hmore : s.Unfolds more ids) :
    s.Unfolds (id :: more) (id :: ids)
  | plain {id : Nat} {more inner ids : List Nat} (h : s.isPlain id = true)
    (hparts : s.Unfolds (s.parts false id) inner) (hmore : s.Unfolds more ids) :
    s.Unfolds (id :: more) (inner ++ ids)

variable {s : Schema} {id p : Nat} {members more ids ids' : List Nat} {throughChoices : Bool}

lemma isElement_of_isPlain (h : s.isPlain id = true) : s.isElement id = false := by
  rw [isElement]
  cases hp : s.pattern id with
  | element name content documentation =>
      rw [isPlain, hp] at h
      cases h
  | _ => rfl

/-- Where there is no choice, it does not matter whether choices are looked into. -/
lemma parts_of_isPlain (h : s.isPlain id = true) :
    s.parts throughChoices id = s.parts false id := by
  rw [parts, parts]
  cases hp : s.pattern id with
  | choice members =>
      rw [isPlain, hp] at h
      cases h
  | _ => rfl

lemma parts_of_isElement (h : s.isElement id = true) : s.parts throughChoices id = [] := by
  rw [isElement] at h
  split at h
  · rename_i hp
    rw [parts, hp]
  · cases h

lemma lt_size_of_isPlain (h : s.isPlain id = true) : id < s.patterns.size := by
  by_contra hle
  have hnone : s.pattern id = .notAllowed := by
    simp [pattern, Array.getD, hle]
  rw [isPlain, hnone] at h
  cases h

namespace Unfolds

/-- A pattern is unfolded to what its parts are. -/
lemma sole (h : s.isPlain id = true) (hparts : s.Unfolds (s.parts false id) ids) :
    s.Unfolds [id] ids :=
  ids.append_nil ▸ .plain h hparts .nil

/-- Patterns are unfolded in one way. -/
lemma unique (h : s.Unfolds members ids) (h' : s.Unfolds members ids') : ids = ids' := by
  induction h generalizing ids' with
  | nil =>
      cases h'
      rfl
  | element hid _ ih =>
      cases h' with
      | element _ hmore => rw [ih hmore]
      | plain hplain =>
          rw [isElement_of_isPlain hplain] at hid
          cases hid
  | plain hid _ _ ihparts ihmore =>
      cases h' with
      | element helement =>
          rw [isElement_of_isPlain hid] at helement
          cases helement
      | plain _ hparts hmore => rw [ihparts hparts, ihmore hmore]

/-- The elements that patterns are unfolded to are those that they lead to. -/
lemma mem_iff (h : s.Unfolds members ids) :
    p ∈ ids ↔ (∃ m ∈ members, s.Leads throughChoices m p) ∧ s.isElement p = true := by
  induction h with
  | nil => simp
  | @element id more ids hid _ ih =>
      rw [List.mem_cons, ih]
      constructor
      · rintro (rfl | ⟨⟨m, hm, hleads⟩, hp⟩)
        · exact ⟨⟨p, List.mem_cons_self, .refl⟩, hid⟩
        · exact ⟨⟨m, List.mem_cons_of_mem id hm, hleads⟩, hp⟩
      · rintro ⟨⟨m, hm, hleads⟩, hp⟩
        rcases List.mem_cons.mp hm with rfl | hm
        · rcases Relation.ReflTransGen.cases_head hleads with rfl | ⟨c, hc, -⟩
          · exact .inl rfl
          · rw [parts_of_isElement hid] at hc
            cases hc
        · exact .inr ⟨⟨m, hm, hleads⟩, hp⟩
  | @plain id more inner ids hid _ _ ihparts ihmore =>
      rw [List.mem_append, ihparts, ihmore]
      constructor
      · rintro (⟨⟨m, hm, hleads⟩, hp⟩ | ⟨⟨m, hm, hleads⟩, hp⟩)
        · rw [← parts_of_isPlain hid] at hm
          exact ⟨⟨id, List.mem_cons_self, .head hm hleads⟩, hp⟩
        · exact ⟨⟨m, List.mem_cons_of_mem id hm, hleads⟩, hp⟩
      · rintro ⟨⟨m, hm, hleads⟩, hp⟩
        rcases List.mem_cons.mp hm with rfl | hm
        · rcases Relation.ReflTransGen.cases_head hleads with rfl | ⟨c, hc, hleads⟩
          · rw [isElement_of_isPlain hid] at hp
            cases hp
          · rw [parts_of_isPlain hid] at hc
            exact .inl ⟨⟨c, hc, hleads⟩, hp⟩
        · exact .inr ⟨⟨m, hm, hleads⟩, hp⟩

/-- Steps down from what can be unfolded come to an end. -/
lemma acc (h : s.Unfolds members ids) : ∀ m ∈ members, Acc (fun b a => b ∈ s.parts false a) m := by
  induction h with
  | nil =>
      rintro _ ⟨⟩
  | element hid _ ih =>
      intro m hm
      rcases List.mem_cons.mp hm with rfl | hm
      · refine .intro m fun c hc => ?_
        rw [parts_of_isElement hid] at hc
        cases hc
      · exact ih m hm
  | plain hid _ _ ihparts ihmore =>
      intro m hm
      rcases List.mem_cons.mp hm with rfl | hm
      · exact .intro m ihparts
      · exact ihmore m hm

end Unfolds

/-- Where steps down come to an end, none leads back. -/
lemma not_leads_back (h : Acc (fun b a => b ∈ s.parts false a) id) {c : Nat}
    (hc : c ∈ s.parts false id) :
    ¬ s.Leads false c id := by
  induction h generalizing c with
  | intro id _ ih =>
      intro hleads
      rcases Relation.ReflTransGen.cases_head hleads with rfl | ⟨c', hc', hleads⟩
      · exact ih c hc hc .refl
      · exact ih c hc hc' (hleads.tail hc)

/-! ## Walking through -/

/-- Whether a walk that stands before some patterns has found the elements of all that it has seen
of what these lead to. -/
def Settled (s : Schema) (w : Walk) (members : List Nat) : Prop :=
  ∀ x ∈ w.seen, (∃ m ∈ members, s.Leads false m x) → ∀ p, s.Leads false x p → s.isElement p = true →
    p ∈ w.found

lemma Settled.mono {w : Walk} (h : s.Settled w members)
    (hsub : ∀ m ∈ more, ∃ m' ∈ members, s.Leads false m' m) : s.Settled w more := by
  rintro x hx ⟨m, hm, hleads⟩
  obtain ⟨m', hm', hleads'⟩ := hsub m hm
  exact h x hx ⟨m', hm', hleads'.trans hleads⟩

/-- A stretch of a walk settles what it sees. -/
lemma Settled.of_covers {w w' : Walk} (h : s.Settled w members)
    (hcovers : Walk.Covers s false ids w w') :
    s.Settled w' members := by
  rintro x hx ⟨m, hm, hleads⟩ p hp helement
  induction hp using Relation.ReflTransGen.head_induction_on with
  | refl =>
      by_cases hold : p ∈ w.seen
      · exact hcovers.found_subset (h p hold ⟨m, hm, hleads⟩ p .refl helement)
      · exact hcovers.elements p hx hold helement
  | @head x y hstep hrest ih =>
      by_cases hold : x ∈ w.seen
      · exact hcovers.found_subset (h x hold ⟨m, hm, hleads⟩ p (.head hstep hrest) helement)
      · exact ih (hcovers.closed x hx hold hstep) (hleads.tail hstep)

lemma found_subset_seen_of_covers {w w' : Walk} (h : w.found ⊆ w.seen)
    (hcovers : Walk.Covers s false ids w w') : w'.found ⊆ w'.seen := by
  intro x hx
  rcases hcovers.sound x hx with hx | ⟨-, hx⟩
  · exact hcovers.seen_subset (h hx)
  · exact hx

/-- What stays so from one of the patterns to the next. -/
lemma Settled.walked {depth : Nat} {w : Walk} (hdepth : s.unseen w < depth)
    (hfound : w.found ⊆ w.seen)
    (h : s.Settled w (id :: more)) :
    s.unseen (s.walkElements false depth w id) < depth ∧
      (s.walkElements false depth w id).found ⊆ (s.walkElements false depth w id).seen ∧
      s.Settled (s.walkElements false depth w id) more := by
  have hcovers := walkElements_covers false depth w id hdepth
  refine ⟨(unseen_le_of_subset hcovers.seen_subset).trans_lt hdepth,
    found_subset_seen_of_covers hfound hcovers, Settled.of_covers ?_ hcovers⟩
  exact h.mono fun m hm => ⟨m, List.mem_cons_of_mem id hm, .refl⟩

/-- **A walk through what can be unfolded finds the elements in their order**, those that it has not
found before. -/
lemma Unfolds.foldl_walkElements (h : s.Unfolds members ids) {depth : Nat} {w : Walk}
    (hdepth : s.unseen w < depth) (hfound : w.found ⊆ w.seen) (hsettled : s.Settled w members) :
    (members.foldl (s.walkElements false depth) w).found = ids.foldl addOnce w.found := by
  induction h generalizing depth w with
  | nil => rfl
  | @element id more ids hid _ ih =>
      obtain ⟨hdepth', hfound', hsettled'⟩ := hsettled.walked hdepth hfound
      have hone : (s.walkElements false depth w id).found = addOnce w.found id := by
        cases depth with
        | zero => exact absurd hdepth (Nat.not_lt_zero _)
        | succ depth =>
            by_cases hseen : id ∈ w.seen
            · rw [walkElements_of_seen hseen,
                addOnce_of_mem (hsettled id hseen ⟨id, List.mem_cons_self, .refl⟩ id .refl hid)]
            · rw [walkElements_of_new hseen, parts_of_isElement hid, if_pos hid,
                addOnce_of_notMem fun hmem => hseen (hfound hmem)]
              rfl
      rw [List.foldl_cons, ih hdepth' hfound' hsettled', hone, List.foldl_cons]
  | @plain id more inner ids hid hparts _ ihparts ihmore =>
      obtain ⟨hdepth', hfound', hsettled'⟩ := hsettled.walked hdepth hfound
      have hinner : (s.walkElements false depth w id).found = inner.foldl addOnce w.found := by
        cases depth with
        | zero => exact absurd hdepth (Nat.not_lt_zero _)
        | succ depth =>
            by_cases hseen : id ∈ w.seen
            · rw [walkElements_of_seen hseen, foldl_addOnce_of_subset]
              intro p hp
              obtain ⟨⟨m, hm, hleads⟩, helement⟩ := hparts.mem_iff.mp hp
              exact hsettled id hseen ⟨id, List.mem_cons_self, .refl⟩ p (.head hm hleads) helement
            · rw [walkElements_of_new hseen, if_neg (by rw [isElement_of_isPlain hid]; decide)]
              refine ihparts ((unseen_lt_of_new (lt_size_of_isPlain hid) hseen).trans_le
                (Nat.le_of_lt_succ hdepth)) (fun x hx => List.mem_cons_of_mem id (hfound hx)) ?_
              rintro x hx ⟨m, hm, hleads⟩ p hp helement
              rcases List.mem_cons.mp hx with rfl | hx
              · -- a pattern that is being walked through is not met again in its parts
                exact absurd hleads (not_leads_back (.intro x hparts.acc) hm)
              · exact hsettled x hx ⟨id, List.mem_cons_self, .head hm hleads⟩ p hp helement
      rw [List.foldl_cons, ihmore hdepth' hfound' hsettled', hinner, List.foldl_append]

/-- **The elements that are required are those of the list**, each where it stands first. -/
lemma Unfolds.requiredElementPatterns_eq (h : s.Unfolds [id] ids) :
    s.requiredElementPatterns id = ids.foldl addOnce [] := by
  have hsettled : s.Settled ⟨[], []⟩ [id] := by
    rintro x ⟨⟩
  exact h.foldl_walkElements (Nat.lt_succ_of_le unseen_empty_le) (List.nil_subset _) hsettled

/-! ## Words -/

lemma childPatterns_eq (s : Schema) (id : Nat) :
    s.childPatterns id = s.contentStep (fun p => {[p]}) s.childPatterns id :=
  s.content_eq _ id

lemma childPatterns_of_isElement (h : s.isElement id = true) : s.childPatterns id = {[id]} := by
  rw [isElement] at h
  split at h
  · rename_i hp
    rw [childPatterns_eq, contentStep, hp]
  · cases h

/-- The words of a pattern that asks for all of its parts: the parts stand one after another, are
mingled, or are repeated. -/
lemma childPatterns_of_isPlain (h : s.isPlain id = true) :
    s.childPatterns id = ((s.parts false id).map s.childPatterns).prod ∨
      s.childPatterns id = ((s.parts false id).map s.childPatterns).foldl shuffle 1 ∨
      s.childPatterns id =
        ((s.parts false id).map s.childPatterns).prod *
        ((s.parts false id).map s.childPatterns).prod∗ := by
  rw [childPatterns_eq, contentStep]
  rw [isPlain] at h
  rw [parts]
  cases hp : s.pattern id with
  | element name content documentation =>
      rw [hp] at h
      cases h
  | choice ids =>
      rw [hp] at h
      cases h
  | notAllowed =>
      rw [hp] at h
      cases h
  | interleave ids => exact .inr (.inl rfl)
  | oneOrMore body =>
      dsimp only
      rw [List.map_singleton, List.prod_singleton]
      exact .inr (.inr rfl)
  | ref d =>
      rw [hp] at h
      obtain ⟨body, hbody⟩ := Option.isSome_iff_exists.mp h
      dsimp only
      rw [hbody, Option.toList_some, List.map_singleton, List.prod_singleton]
      exact .inl rfl
  | _ => exact .inl rfl

/-- A word of all parts, one after another and mingled, is a word of the pattern. -/
lemma mem_childPatterns_of_parts (h : s.isPlain id = true) {w : List Nat}
    (hprod : w ∈ ((s.parts false id).map s.childPatterns).prod)
    (hmingled : w ∈ ((s.parts false id).map s.childPatterns).foldl shuffle 1) :
    w ∈ s.childPatterns id := by
  rcases childPatterns_of_isPlain h with heq | heq | heq
  · rwa [heq]
  · rwa [heq]
  · rw [heq]
    exact ⟨w, hprod, [], Language.nil_mem_kstar _, List.append_nil w⟩

/-- What is in all words of the parts is in the words of the pattern. -/
lemma subperm_of_mem_childPatterns (h : s.isPlain id = true) {u w : List Nat}
    (hprod : ∀ v ∈ ((s.parts false id).map s.childPatterns).prod, u.Subperm v)
    (hmingled : ∀ v ∈ ((s.parts false id).map s.childPatterns).foldl shuffle 1, u.Subperm v)
    (hw : w ∈ s.childPatterns id) : u.Subperm w := by
  rcases childPatterns_of_isPlain h with heq | heq | heq
  · rw [heq] at hw
    exact hprod w hw
  · rw [heq] at hw
    exact hmingled w hw
  · rw [heq] at hw
    obtain ⟨first, hfirst, more, -, rfl⟩ := hw
    exact (hprod first hfirst).trans (List.sublist_append_left first more).subperm

namespace Unfolds

/-- What patterns are unfolded to is a word of them, one after another and mingled. -/
lemma mem_words (h : s.Unfolds members ids) :
    ids ∈ (members.map s.childPatterns).prod ∧ ∀ (l : Language Nat), ∀ u ∈ l,
      u ++ ids ∈ (members.map s.childPatterns).foldl shuffle l := by
  induction h with
  | nil =>
      refine ⟨rfl, fun l u hu => ?_⟩
      rwa [List.append_nil]
  | @element id more ids hid _ ih =>
      have hone : [id] ∈ s.childPatterns id := by
        rw [childPatterns_of_isElement hid]
        rfl
      refine ⟨⟨[id], hone, ids, ih.1, rfl⟩, fun l u hu => ?_⟩
      rw [List.append_cons]
      exact ih.2 _ _ ⟨u, hu, [id], hone, .append u [id]⟩
  | @plain id more inner ids hid _ _ ihparts ihmore =>
      have hinner : inner ∈ s.childPatterns id :=
        mem_childPatterns_of_parts hid ihparts.1 (ihparts.2 1 [] rfl)
      refine ⟨⟨inner, hinner, ids, ihmore.1, rfl⟩, fun l u hu => ?_⟩
      rw [← List.append_assoc]
      exact ihmore.2 _ _ ⟨u, hu, inner, hinner, .append u inner⟩

end Unfolds

/-- Whether a list is in each word of patterns, one after another and mingled. -/
structure InWords (s : Schema) (members ids : List Nat) : Prop where
  prod : ∀ w ∈ (members.map s.childPatterns).prod, ids.Subperm w
  mingled : ∀ (l : Language Nat) (u : List Nat), (∀ v ∈ l, u.Subperm v) →
    ∀ w ∈ (members.map s.childPatterns).foldl shuffle l, (u ++ ids).Subperm w

lemma InWords.nil : s.InWords [] [] := by
  refine ⟨fun w _ => List.nil_subperm, fun l u hl w hw => ?_⟩
  rw [List.append_nil]
  exact hl w hw

lemma InWords.cons {inner : List Nat} (hfirst : ∀ v ∈ s.childPatterns id, inner.Subperm v)
    (h : s.InWords more ids) : s.InWords (id :: more) (inner ++ ids) := by
  constructor
  · rintro w ⟨first, hw, rest, hrest, rfl⟩
    exact (hfirst first hw).append (h.prod rest hrest)
  · intro l u hl w hw
    rw [← List.append_assoc]
    refine h.mingled (shuffle l (s.childPatterns id)) (u ++ inner) ?_ w hw
    rintro v ⟨a, ha, b, hb, hmingled⟩
    exact ((hl a ha).append (hfirst b hb)).trans hmingled.perm.subperm

namespace Unfolds

lemma inWords (h : s.Unfolds members ids) : s.InWords members ids := by
  induction h with
  | nil => exact .nil
  | @element id more ids hid _ ih =>
      have hone : ∀ v ∈ s.childPatterns id, [id].Subperm v := by
        intro v hv
        rw [childPatterns_of_isElement hid] at hv
        cases hv
        exact List.Subperm.refl _
      exact .cons hone ih
  | plain hid _ _ ihparts ihmore =>
      have hmingled := ihparts.mingled 1 [] fun w _ => List.nil_subperm
      exact .cons (fun v hv => subperm_of_mem_childPatterns hid ihparts.prod hmingled hv) ihmore

/-- **What a content model is unfolded to is one of its words.** -/
lemma mem_childPatterns (h : s.Unfolds [id] ids) : ids ∈ s.childPatterns id := by
  have hprod := h.mem_words.1
  rwa [List.map_singleton, List.prod_singleton] at hprod

/-- **Each word of a content model has each element at least as often as the model is unfolded to
it.** -/
lemma subperm (h : s.Unfolds [id] ids) {w : List Nat} (hw : w ∈ s.childPatterns id) :
    ids.Subperm w := by
  refine h.inWords.prod w ?_
  rwa [List.map_singleton, List.prod_singleton]

/-- **The elements that a walk finds are complete content exactly if each of them is met once.** -/
theorem names_mem_childNames_iff (h : s.Unfolds [id] ids) {names : Nat → String × String}
    (hnames : ∀ p ∈ ids, s.simpleName? p = some (names p)) :
    (s.requiredElementPatterns id).map names ∈ s.childNames id ↔ ids.Nodup := by
  rw [h.requiredElementPatterns_eq, mem_childNames_iff]
  constructor
  · rintro ⟨w, hw, hadmits⟩
    have hfound : (ids.foldl addOnce []).Nodup := nodup_foldl_addOnce List.nodup_nil
    have hsubset : (ids.foldl addOnce []).Subperm ids := by
      refine hfound.subperm fun p hp => ?_
      rcases mem_foldl_addOnce.mp hp with hp | hp
      · cases hp
      · exact hp
    -- a word has all that the list has, and this one has no more than was found
    have hlength : ids.length ≤ (ids.foldl addOnce []).length := by
      have hle := (h.subperm hw).length_le
      rw [hadmits.length_eq, List.length_map] at hle
      exact hle
    exact (hsubset.perm_of_length_le hlength).nodup_iff.mp hfound
  · intro hnodup
    have hall : ids.foldl addOnce [] = [] ++ ids := foldl_addOnce_of_nodup hnodup
    rw [hall, List.nil_append]
    refine ⟨ids, h.mem_childPatterns,
      List.forall₂_map_right_iff.mpr (List.forall₂_same.mpr fun p hp => ?_)⟩
    exact (admits_iff_of_simpleName? s (hnames p hp)).mpr rfl

end Unfolds

end Schema

end XmlAdvisor
