import XmlAdvisor.Proofs.Reachability
import Mathlib.Data.Finset.Prod

/-!
# Walks to attributes find exactly what can be reached

A walk to attributes goes through all parts of a pattern and notes whether it went through a choice.
So it walks over pairs of a pattern and a flag, which is lost in a choice and never comes back, and
an attribute is met at most twice.

* `Visits` — what a stretch of a walk over a graph achieves that visits no node twice.
* `Schema.AttributeWalk.Agrees` — the attributes found are those visited, each once, and they are
  required as soon as they were visited with the flag.
* `walkAttributes_visits`, `walkAttributes_agrees` — both hold of a walk; the first needs a depth
  for the pairs not yet visited.
* **`mem_attributePatterns_iff`** — the attributes found are the attributes reachable, and those
  required are the ones that are reachable without a choice.
-/

namespace XmlAdvisor

/-! ## Visiting the nodes of a graph -/

/-- A stretch of a walk takes care of the given nodes: it visits them and all that they lead to,
unless that was visited before, and nothing else. -/
structure Visits {α : Type} (next : α → List α) (nodes seen seen' : List α) : Prop where
  seen_subset : seen ⊆ seen'
  visited : nodes ⊆ seen'
  closed : ∀ x ∈ seen', x ∉ seen → next x ⊆ seen'
  reached : ∀ x ∈ seen', x ∈ seen ∨ ∃ a ∈ nodes, Relation.ReflTransGen (fun a b => b ∈ next a) a x

namespace Visits

variable {α : Type} {next : α → List α} {a : α} {nodes seen seen₁ seen₂ : List α}

lemma nil : Visits next [] seen seen :=
  ⟨List.Subset.refl _, List.nil_subset _, fun _ hx hn => absurd hx hn, fun _ hx => .inl hx⟩

/-- A walk from a node visited before stays where it is. -/
lemma of_seen (h : a ∈ seen) : Visits next [a] seen seen :=
  ⟨List.Subset.refl _, by simpa using h, fun _ hx hn => absurd hx hn, fun _ hx => .inl hx⟩

/-- One stretch after another. -/
lemma cons (h₁ : Visits next [a] seen seen₁) (h₂ : Visits next nodes seen₁ seen₂) :
    Visits next (a :: nodes) seen seen₂ where
  seen_subset := List.Subset.trans h₁.seen_subset h₂.seen_subset
  visited := List.cons_subset.mpr ⟨h₂.seen_subset (h₁.visited (by simp)), h₂.visited⟩
  closed x hx hn := by
    by_cases hx₁ : x ∈ seen₁
    · exact List.Subset.trans (h₁.closed x hx₁ hn) h₂.seen_subset
    · exact h₂.closed x hx hx₁
  reached x hx := by
    rcases h₂.reached x hx with hx₁ | ⟨b, hb, hl⟩
    · rcases h₁.reached x hx₁ with hx | ⟨b, hb, hl⟩
      · exact .inl hx
      · exact .inr ⟨b, List.mem_cons.mpr (.inl (List.mem_singleton.mp hb)), hl⟩
    · exact .inr ⟨b, List.mem_cons_of_mem _ hb, hl⟩

/-- Going down from a new node: taking care of the nodes next to it takes care of it. -/
lemma descend (h : Visits next (next a) (a :: seen) seen₁) : Visits next [a] seen seen₁ where
  seen_subset x hx := h.seen_subset (List.mem_cons_of_mem a hx)
  visited := by simpa using h.seen_subset (List.mem_cons_self ..)
  closed x hx hn := by
    by_cases hxa : x = a
    · subst hxa
      exact h.visited
    · exact h.closed x hx (by simp [hxa, hn])
  reached x hx := by
    rcases h.reached x hx with hx | ⟨b, hb, hl⟩
    · rcases List.mem_cons.mp hx with rfl | hx
      · exact .inr ⟨x, by simp, .refl⟩
      · exact .inl hx
    · exact .inr ⟨a, by simp, .head hb hl⟩

/-- A walk from nowhere visits exactly what its start leads to. -/
lemma mem_iff (h : Visits next [a] [] seen) {x : α} :
    x ∈ seen ↔ Relation.ReflTransGen (fun a b => b ∈ next a) a x := by
  constructor
  · intro hx
    obtain hx | ⟨b, hb, hl⟩ := h.reached x hx
    · cases hx
    · exact List.mem_singleton.mp hb ▸ hl
  · intro hl
    induction hl with
    | refl => exact h.visited (by simp)
    | tail _ hb ih => exact h.closed _ ih (by simp) hb

end Visits

namespace Schema

variable {s : Schema} {id p : Nat} {required : Bool}

/-! ## Patterns with a flag -/

/-- Whether a pattern is an attribute. -/
def isAttribute (s : Schema) (id : Nat) : Bool :=
  match s.pattern id with
  | .attribute .. => true
  | _ => false

/-- Whether a pattern is a choice. -/
def isChoice (s : Schema) (id : Nat) : Bool :=
  match s.pattern id with
  | .choice _ => true
  | _ => false

/-- The parts of a pattern; the flag is lost in a choice. -/
def flaggedParts (s : Schema) (x : Nat × Bool) : List (Nat × Bool) :=
  (s.parts true x.1).map fun m => (m, x.2 && !s.isChoice x.1)

lemma parts_false (id : Nat) :
    s.parts false id = if s.isChoice id then [] else s.parts true id := by
  rw [parts, parts, isChoice]
  cases s.pattern id <;> rfl

/-- The flag is kept exactly on the ways through no choice. -/
lemma leads_false_iff : s.Leads false id p ↔
    Relation.ReflTransGen (fun x y => y ∈ s.flaggedParts x) (id, true) (p, true) := by
  constructor
  · refine fun h => Relation.ReflTransGen.lift (fun m => (m, true)) (fun a m hm => ?_) _ _ h
    rw [parts_false] at hm
    split_ifs at hm with ha
    · cases hm
    · exact List.mem_map.mpr ⟨m, hm, by simp [ha]⟩
  · have hkept : ∀ x y, Relation.ReflTransGen (fun x y => y ∈ s.flaggedParts x) x y → y.2 = true →
        x.2 = true ∧ s.Leads false x.1 y.1 := by
      intro x y h hy
      induction h using Relation.ReflTransGen.head_induction_on with
      | refl => exact ⟨hy, .refl⟩
      | head hstep _ ih =>
          obtain ⟨m, hm, rfl⟩ := List.mem_map.mp hstep
          obtain ⟨hflag, hleads⟩ := ih
          rw [Bool.and_eq_true, Bool.not_eq_true'] at hflag
          refine ⟨hflag.1, .head ?_ hleads⟩
          rw [parts_false, hflag.2]
          exact hm
    exact fun h => (hkept _ _ h rfl).2

/-- Every way is a way with some flag. -/
lemma leads_true_iff : s.Leads true id p ↔
    ∃ flag, Relation.ReflTransGen (fun x y => y ∈ s.flaggedParts x) (id, true) (p, flag) := by
  constructor
  · intro h
    induction h with
    | refl => exact ⟨true, .refl⟩
    | tail _ hm ih =>
        obtain ⟨flag, hway⟩ := ih
        exact ⟨_, hway.tail (List.mem_map_of_mem hm)⟩
  · rintro ⟨flag, h⟩
    refine Relation.ReflTransGen.lift Prod.fst (fun x y hy => ?_) _ _ h
    obtain ⟨m, hm, rfl⟩ := List.mem_map.mp hy
    exact hm

/-! ## One step of a walk -/

lemma walkAttributes_of_seen {depth : Nat} {w : AttributeWalk} (h : (id, required) ∈ w.seen) :
    s.walkAttributes (depth + 1) required w id = w := by
  simp [walkAttributes, h]

/-- Where a walk goes on from a pattern that is met for the first time with its flag. -/
def meet (s : Schema) (required : Bool) (w : AttributeWalk) (id : Nat) : AttributeWalk :=
  ⟨(id, required) :: w.seen, if s.isAttribute id then meetAttribute id required w.found
    else w.found⟩

lemma walkAttributes_of_new {depth : Nat} {w : AttributeWalk} (h : (id, required) ∉ w.seen) :
    s.walkAttributes (depth + 1) required w id =
      (s.parts true id).foldl (s.walkAttributes depth (required && !s.isChoice id))
        (s.meet required w id) := by
  cases hp : s.pattern id with
  | ref d =>
      cases hb : s.body? d <;>
        simp [walkAttributes, parts, isAttribute, isChoice, meet, hp, h, hb]
  | _ => simp [walkAttributes, parts, isAttribute, isChoice, meet, hp, h]

/-! ## What is found -/

lemma keys_meetAttribute (found : List (Nat × Bool)) :
    (meetAttribute id required found).map Prod.fst =
      if id ∈ found.map Prod.fst then found.map Prod.fst else found.map Prod.fst ++ [id] := by
  induction found with
  | nil => rfl
  | cons x more ih =>
      obtain ⟨other, r⟩ := x
      rw [meetAttribute]
      by_cases hid : other = id
      · simp [hid]
      · have hne : id ≠ other := fun h => hid h.symm
        rw [if_neg hid, List.map_cons, ih]
        simp only [List.map_cons, List.mem_cons, hne, false_or]
        split_ifs <;> rfl

lemma nodup_meetAttribute {found : List (Nat × Bool)} (hnodup : (found.map Prod.fst).Nodup) :
    ((meetAttribute id required found).map Prod.fst).Nodup := by
  rw [keys_meetAttribute]
  split_ifs with hid
  · exact hnodup
  · exact List.nodup_append'.mpr ⟨hnodup, List.nodup_singleton id, by simpa using hid⟩

/-- An attribute that is met is required if it is met as required, or was before. -/
lemma mem_meetAttribute {found : List (Nat × Bool)} (hnodup : (found.map Prod.fst).Nodup)
    {r : Bool} :
    (p, r) ∈ meetAttribute id required found ↔
      if p = id then (r = true ↔ required = true ∨ (id, true) ∈ found) else (p, r) ∈ found := by
  induction found with
  | nil =>
      by_cases hp : p = id
      · cases r <;> cases required <;> simp [meetAttribute, hp]
      · simp [meetAttribute, hp]
  | cons x more ih =>
      obtain ⟨other, o⟩ := x
      rw [List.map_cons, List.nodup_cons] at hnodup
      have hnew (q : Bool) : (other, q) ∉ more := fun h =>
        hnodup.1 (List.mem_map.mpr ⟨(other, q), h, rfl⟩)
      rw [meetAttribute]
      by_cases hid : other = id
      · subst hid
        by_cases hp : p = other
        · subst hp
          cases o <;> cases r <;> cases required <;> simp [hnew]
        · simp [hp]
      · have hne : id ≠ other := fun h => hid h.symm
        rw [if_neg hid, List.mem_cons, ih hnodup.2]
        by_cases hp : p = id
        · subst hp
          simp [hne]
        · simp [hp]

/-- The attributes found are those visited, each once, and required are those visited with the
flag. -/
structure AttributeWalk.Agrees (s : Schema) (w : AttributeWalk) : Prop where
  nodup : (w.found.map Prod.fst).Nodup
  found : ∀ p r, (p, r) ∈ w.found ↔
    s.isAttribute p = true ∧ (∃ flag, (p, flag) ∈ w.seen) ∧ (r = true ↔ (p, true) ∈ w.seen)

lemma meet_agrees {w : AttributeWalk} (h : w.Agrees s) : (s.meet required w id).Agrees s := by
  constructor
  · rw [meet]
    split_ifs
    · exact nodup_meetAttribute h.nodup
    · exact h.nodup
  · intro p r
    rw [meet]
    dsimp only
    by_cases hp : p = id
    · subst hp
      split_ifs with hattribute
      · have hmet : ∃ flag, (p, flag) ∈ (p, required) :: w.seen := ⟨required, List.mem_cons_self ..⟩
        have hbefore : (p, true) ∈ w.found ↔ (p, true) ∈ w.seen := by
          rw [h.found]
          exact ⟨fun hf => hf.2.2.mp rfl, fun hs => ⟨hattribute, ⟨true, hs⟩, iff_of_true rfl hs⟩⟩
        rw [mem_meetAttribute h.nodup, if_pos rfl, hbefore, List.mem_cons, Prod.mk.injEq,
          @eq_comm _ true required]
        simp only [hattribute, hmet, true_and]
      · rw [h.found]
        simp [hattribute]
    · have hsame : ∀ flag, (p, flag) ∈ (id, required) :: w.seen ↔ (p, flag) ∈ w.seen := by
        simp [hp]
      simp only [hsame, ← h.found p r]
      split_ifs
      · rw [mem_meetAttribute h.nodup, if_neg hp]
      · rfl

/-- A walk finds what it visits. -/
lemma walkAttributes_agrees (depth : Nat) (required : Bool) (w : AttributeWalk) (id : Nat)
    (h : w.Agrees s) : (s.walkAttributes depth required w id).Agrees s := by
  induction depth generalizing required w id with
  | zero => exact h
  | succ depth ih =>
      by_cases hseen : (id, required) ∈ w.seen
      · rw [walkAttributes_of_seen hseen]
        exact h
      · rw [walkAttributes_of_new hseen]
        exact List.foldlRecOn _ _ (meet_agrees h) fun v hv m _ => ih _ v m hv

/-! ## The depth is enough -/

/-- How many patterns of the schema have not been visited, with and without the flag. -/
def unmet (s : Schema) (seen : List (Nat × Bool)) : Nat :=
  ((Finset.range s.patterns.size ×ˢ {true, false}).filter (· ∉ seen)).card

lemma unmet_le_of_subset {seen seen' : List (Nat × Bool)} (h : seen ⊆ seen') :
    s.unmet seen' ≤ s.unmet seen := by
  refine Finset.card_le_card fun x hx => ?_
  simp only [Finset.mem_filter] at hx ⊢
  exact ⟨hx.1, fun hs => hx.2 (h hs)⟩

lemma unmet_lt_of_new {seen : List (Nat × Bool)} (hid : id < s.patterns.size)
    (hnew : (id, required) ∉ seen) : s.unmet ((id, required) :: seen) < s.unmet seen := by
  refine Finset.card_lt_card ⟨fun x hx => ?_, fun hsub => ?_⟩
  · simp only [Finset.mem_filter, List.mem_cons, not_or] at hx ⊢
    exact ⟨hx.1, hx.2.2⟩
  · have hmem : (id, required) ∈ (Finset.range s.patterns.size ×ˢ {true, false}).filter
        (· ∉ seen) := by
      cases required <;> simp [hid, hnew]
    simpa using hsub hmem

lemma unmet_nil_le : s.unmet [] ≤ 2 * s.patterns.size := by
  refine (Finset.card_filter_le _ _).trans ?_
  rw [Finset.card_product, Finset.card_range, Nat.mul_comm]
  exact Nat.le_refl _

/-- With enough depth for what is not yet visited, a walk takes care of its start. -/
lemma walkAttributes_visits (depth : Nat) (required : Bool) (w : AttributeWalk) (id : Nat)
    (h : s.unmet w.seen < depth) :
    Visits s.flaggedParts [(id, required)] w.seen (s.walkAttributes depth required w id).seen := by
  induction depth generalizing required w id with
  | zero => exact absurd h (Nat.not_lt_zero _)
  | succ depth ih =>
      by_cases hseen : (id, required) ∈ w.seen
      · rw [walkAttributes_of_seen hseen]
        exact .of_seen hseen
      · rw [walkAttributes_of_new hseen]
        refine .descend ?_
        by_cases hid : id < s.patterns.size
        · -- one pair less is left to visit, so the parts can be walked with one level less
          have hfold : ∀ (flag : Bool) (ids : List Nat) (v : AttributeWalk),
              s.unmet v.seen < depth →
              Visits s.flaggedParts (ids.map fun m => (m, flag)) v.seen
                (ids.foldl (s.walkAttributes depth flag) v).seen := by
            intro flag ids
            induction ids with
            | nil => exact fun v _ => .nil
            | cons i ids ihids =>
                intro v hv
                have hfirst := ih flag v i hv
                exact .cons hfirst (ihids _ ((unmet_le_of_subset hfirst.seen_subset).trans_lt hv))
          have hless : s.unmet (s.meet required w id).seen < s.unmet w.seen :=
            unmet_lt_of_new hid hseen
          exact hfold _ _ _ (Nat.lt_of_lt_of_le hless (Nat.le_of_lt_succ h))
        · rw [flaggedParts, parts_eq_nil_of_size_le (Nat.not_lt.mp hid)]
          exact .nil

/-! ## The attributes that are found -/

lemma agrees_empty : AttributeWalk.Agrees s ⟨[], []⟩ :=
  ⟨.nil, by simp⟩

lemma nodup_attributePatterns : ((s.attributePatterns id).map Prod.fst).Nodup :=
  (walkAttributes_agrees _ true ⟨[], []⟩ id agrees_empty).nodup

/-- **The attributes of a content model are those that it leads to**, each once, and one is required
exactly if some way to it goes through no choice. -/
theorem mem_attributePatterns_iff {r : Bool} : (p, r) ∈ s.attributePatterns id ↔
    s.isAttribute p = true ∧ s.Leads true id p ∧ (r = true ↔ s.Leads false id p) := by
  have hvisits : Visits s.flaggedParts [(id, true)] []
      (s.walkAttributes (2 * s.patterns.size + 1) true ⟨[], []⟩ id).seen :=
    walkAttributes_visits _ true ⟨[], []⟩ id (Nat.lt_succ_of_le unmet_nil_le)
  rw [attributePatterns, (walkAttributes_agrees _ true ⟨[], []⟩ id agrees_empty).found p r,
    leads_true_iff, leads_false_iff]
  simp only [hvisits.mem_iff]

lemma exists_mem_attributePatterns (hp : s.isAttribute p = true) (hl : s.Leads true id p) :
    ∃ r, (p, r) ∈ s.attributePatterns id := by
  classical
  exact ⟨decide (s.Leads false id p), mem_attributePatterns_iff.mpr ⟨hp, hl, decide_eq_true_iff⟩⟩

end Schema

end XmlAdvisor
