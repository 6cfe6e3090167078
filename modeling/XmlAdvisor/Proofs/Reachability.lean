import XmlAdvisor.Schema.Reach
import Mathlib.Data.Finset.Card
import Mathlib.Data.Finset.Range
import Mathlib.Logic.Relation

/-!
# Walks find exactly what can be reached

A walk goes from a pattern through its parts and visits no pattern twice.  It is bounded by a depth,
so two things have to be shown: the depth never cuts it short, and a pattern that is passed over
because it was visited before has been, or is being, taken care of.

* `Schema.Leads` — reachability: any number of steps from a pattern to one of its parts.
* `Walk.Covers` — what one stretch of a walk achieves.  Its heart is the field `closed`: the parts
  of every pattern visited on the stretch are visited by its end.
* `walkElements_covers` — with enough depth for the patterns not yet visited, a walk covers its
  start.
* **`mem_elementPatterns_iff`** — the elements found are the elements reachable.
-/

namespace XmlAdvisor

namespace Schema

variable {s : Schema} {throughChoices : Bool}

/-! ## Reachability -/

/-- The patterns one step down from a pattern: not into elements and attributes, and into choices
only if told so. -/
def parts (s : Schema) (throughChoices : Bool) (id : Nat) : List Nat :=
  match s.pattern id with
  | .group members | .interleave members => members
  | .choice members => if throughChoices then members else []
  | .oneOrMore body => [body]
  | .ref d => (s.body? d).toList
  | _ => []

/-- Whether any number of steps down leads from one pattern to another. -/
def Leads (s : Schema) (throughChoices : Bool) : Nat → Nat → Prop :=
  Relation.ReflTransGen fun a b => b ∈ s.parts throughChoices a

lemma parts_eq_nil_of_size_le {id : Nat} (h : s.patterns.size ≤ id) :
    s.parts throughChoices id = [] := by
  have hp : s.pattern id = .notAllowed := by
    simp [pattern, Array.getD, Nat.not_lt.mpr h]
  simp [parts, hp]

/-! ## One step of a walk -/

lemma walkElements_of_seen {depth id : Nat} {w : Walk} (h : id ∈ w.seen) :
    s.walkElements throughChoices (depth + 1) w id = w := by
  simp [walkElements, h]

/-- A pattern met for the first time is found if it is an element, and its parts are walked. -/
lemma walkElements_of_new {depth id : Nat} {w : Walk} (h : id ∉ w.seen) :
    s.walkElements throughChoices (depth + 1) w id =
      (s.parts throughChoices id).foldl (s.walkElements throughChoices depth)
        ⟨id :: w.seen, if s.isElement id then w.found ++ [id] else w.found⟩ := by
  cases hp : s.pattern id with
  | choice members => cases throughChoices <;> simp [walkElements, parts, isElement, hp, h]
  | ref d => cases hb : s.body? d <;> simp [walkElements, parts, isElement, hp, h, hb]
  | _ => simp [walkElements, parts, isElement, hp, h]

end Schema

/-! ## What a stretch of a walk achieves -/

/-- A stretch of a walk takes care of the given patterns: it visits them and all that they lead to,
unless that was visited before, and finds the elements among what it visits. -/
structure Walk.Covers (s : Schema) (throughChoices : Bool) (ids : List Nat) (w w' : Walk) :
    Prop where
  seen_subset : w.seen ⊆ w'.seen
  found_subset : w.found ⊆ w'.found
  visited : ids ⊆ w'.seen
  closed : ∀ x ∈ w'.seen, x ∉ w.seen → s.parts throughChoices x ⊆ w'.seen
  elements : ∀ x ∈ w'.seen, x ∉ w.seen → s.isElement x = true → x ∈ w'.found
  reached : ∀ x ∈ w'.seen, x ∈ w.seen ∨ ∃ id ∈ ids, s.Leads throughChoices id x
  sound : ∀ x ∈ w'.found, x ∈ w.found ∨ s.isElement x = true ∧ x ∈ w'.seen

namespace Walk.Covers

variable {s : Schema} {throughChoices : Bool} {w w₁ w₂ : Walk} {id : Nat} {ids : List Nat}

lemma nil : Covers s throughChoices [] w w where
  seen_subset := List.Subset.refl _
  found_subset := List.Subset.refl _
  visited := List.nil_subset _
  closed _ hx hn := absurd hx hn
  elements _ hx hn := absurd hx hn
  reached _ hx := Or.inl hx
  sound _ hx := Or.inl hx

/-- A walk from a pattern visited before stays where it is. -/
lemma of_seen (h : id ∈ w.seen) : Covers s throughChoices [id] w w :=
  ⟨List.Subset.refl _, List.Subset.refl _, by simpa using h, fun _ hx hn => absurd hx hn,
    fun _ hx hn => absurd hx hn, fun _ hx => Or.inl hx, fun _ hx => Or.inl hx⟩

/-- One stretch after another. -/
lemma cons (h₁ : Covers s throughChoices [id] w w₁) (h₂ : Covers s throughChoices ids w₁ w₂) :
    Covers s throughChoices (id :: ids) w w₂ where
  seen_subset := List.Subset.trans h₁.seen_subset h₂.seen_subset
  found_subset := List.Subset.trans h₁.found_subset h₂.found_subset
  visited := List.cons_subset.mpr ⟨h₂.seen_subset (h₁.visited (by simp)), h₂.visited⟩
  closed x hx hn := by
    by_cases hx₁ : x ∈ w₁.seen
    · exact List.Subset.trans (h₁.closed x hx₁ hn) h₂.seen_subset
    · exact h₂.closed x hx hx₁
  elements x hx hn he := by
    by_cases hx₁ : x ∈ w₁.seen
    · exact h₂.found_subset (h₁.elements x hx₁ hn he)
    · exact h₂.elements x hx hx₁ he
  reached x hx := by
    rcases h₂.reached x hx with hx₁ | ⟨i, hi, hl⟩
    · rcases h₁.reached x hx₁ with hx | ⟨i, hi, hl⟩
      · exact Or.inl hx
      · exact Or.inr ⟨i, List.mem_cons.mpr (Or.inl (List.mem_singleton.mp hi)), hl⟩
    · exact Or.inr ⟨i, List.mem_cons_of_mem _ hi, hl⟩
  sound x hx := by
    rcases h₂.sound x hx with hx₁ | hx₂
    · rcases h₁.sound x hx₁ with hx | ⟨he, hs⟩
      · exact Or.inl hx
      · exact Or.inr ⟨he, h₂.seen_subset hs⟩
    · exact Or.inr hx₂

/-- Going down from a new pattern: covering its parts covers the pattern. -/
lemma descend (hnew : id ∉ w.seen)
    (h : Covers s throughChoices (s.parts throughChoices id)
      ⟨id :: w.seen, if s.isElement id then w.found ++ [id] else w.found⟩ w₁) :
    Covers s throughChoices [id] w w₁ := by
  have hid : id ∈ w₁.seen := h.seen_subset (by simp)
  have hfound : w.found ⊆ if s.isElement id then w.found ++ [id] else w.found := by
    split_ifs <;> simp
  refine ⟨fun x hx => h.seen_subset (by simp [hx]), List.Subset.trans hfound h.found_subset,
    by simpa using hid,
    fun x hx hn => ?_, fun x hx hn he => ?_, fun x hx => ?_, fun x hx => ?_⟩
  · by_cases hxid : x = id
    · subst hxid; exact h.visited
    · exact h.closed x hx (by simp [hxid, hn])
  · by_cases hxid : x = id
    · subst hxid; exact h.found_subset (by simp [he])
    · exact h.elements x hx (by simp [hxid, hn]) he
  · rcases h.reached x hx with hx | ⟨i, hi, hl⟩
    · rcases List.mem_cons.mp hx with rfl | hx
      · exact Or.inr ⟨x, by simp, .refl⟩
      · exact Or.inl hx
    · exact Or.inr ⟨id, by simp, .head hi hl⟩
  · rcases h.sound x hx with hx | hx
    · split_ifs at hx with he
      · rcases List.mem_append.mp hx with hx | hx
        · exact Or.inl hx
        · rw [List.mem_singleton.mp hx]; exact Or.inr ⟨he, hid⟩
      · exact Or.inl hx
    · exact Or.inr hx

end Walk.Covers

namespace Schema

variable {s : Schema} {throughChoices : Bool}

/-! ## The depth is enough -/

/-- How many patterns of the schema have not been visited. -/
def unseen (s : Schema) (w : Walk) : Nat :=
  ((Finset.range s.patterns.size).filter (· ∉ w.seen)).card

lemma unseen_le_of_subset {w w' : Walk} (h : w.seen ⊆ w'.seen) : s.unseen w' ≤ s.unseen w := by
  refine Finset.card_le_card fun x hx => ?_
  simp only [Finset.mem_filter] at hx ⊢
  exact ⟨hx.1, fun hw => hx.2 (h hw)⟩

lemma unseen_lt_of_new {w : Walk} {id : Nat} {found : List Nat} (hid : id < s.patterns.size)
    (hnew : id ∉ w.seen) : s.unseen ⟨id :: w.seen, found⟩ < s.unseen w := by
  refine Finset.card_lt_card ⟨fun x hx => ?_, fun hsub => ?_⟩
  · simp only [Finset.mem_filter, List.mem_cons, not_or] at hx ⊢
    exact ⟨hx.1, hx.2.2⟩
  · have hmem := hsub (Finset.mem_filter.mpr ⟨Finset.mem_range.mpr hid, hnew⟩)
    simp at hmem

/-- With enough depth for the patterns not yet visited, a walk covers where it starts. -/
lemma walkElements_covers (throughChoices : Bool) (depth : Nat) (w : Walk) (id : Nat)
    (h : s.unseen w < depth) :
    Walk.Covers s throughChoices [id] w (s.walkElements throughChoices depth w id) := by
  induction depth generalizing w id with
  | zero => exact absurd h (Nat.not_lt_zero _)
  | succ depth ih =>
      by_cases hseen : id ∈ w.seen
      · rw [walkElements_of_seen hseen]
        exact .of_seen hseen
      · rw [walkElements_of_new hseen]
        refine .descend hseen ?_
        by_cases hid : id < s.patterns.size
        · -- one pattern less is left to visit, so the parts can be walked with one level less
          have hfold : ∀ (ids : List Nat) (v : Walk), s.unseen v < depth →
              Walk.Covers s throughChoices ids v
                (ids.foldl (s.walkElements throughChoices depth) v) := by
            intro ids
            induction ids with
            | nil => exact fun v _ => .nil
            | cons i ids ihids =>
                intro v hv
                have hfirst := ih v i hv
                exact .cons hfirst (ihids _ ((unseen_le_of_subset hfirst.seen_subset).trans_lt hv))
          exact hfold _ _ (Nat.lt_of_lt_of_le (unseen_lt_of_new hid hseen) (Nat.le_of_lt_succ h))
        · rw [parts_eq_nil_of_size_le (Nat.not_lt.mp hid)]
          exact .nil

/-! ## The elements that are found -/

lemma unseen_empty_le : s.unseen ⟨[], []⟩ ≤ s.patterns.size := by
  have h := Finset.card_filter_le (Finset.range s.patterns.size) (· ∉ (⟨[], []⟩ : Walk).seen)
  rwa [Finset.card_range] at h

/-- A walk from the start visits exactly what its start leads to, and finds the elements of it. -/
lemma mem_walkElements_found_iff {id p : Nat} :
    p ∈ (s.walkElements throughChoices (s.patterns.size + 1) ⟨[], []⟩ id).found ↔
      s.Leads throughChoices id p ∧ s.isElement p = true := by
  have h := walkElements_covers throughChoices (s.patterns.size + 1) ⟨[], []⟩ id
    (Nat.lt_succ_of_le (unseen_empty_le (s := s)))
  constructor
  · intro hp
    rcases h.sound p hp with hp | ⟨he, hs⟩
    · cases hp
    · rcases h.reached p hs with hp | ⟨i, hi, hl⟩
      · cases hp
      · rw [List.mem_singleton.mp hi] at hl
        exact ⟨hl, he⟩
  · rintro ⟨hl, he⟩
    have hseen : p ∈ (s.walkElements throughChoices (s.patterns.size + 1) ⟨[], []⟩ id).seen := by
      clear he
      induction hl with
      | refl => exact h.visited (by simp)
      | tail _ hb ih => exact h.closed _ ih (by simp) hb
    exact h.elements p hseen (by simp) he

/-- **The element patterns of a content model are the elements it leads to.** -/
theorem mem_elementPatterns_iff {id p : Nat} :
    p ∈ s.elementPatterns id ↔ s.Leads true id p ∧ s.isElement p = true :=
  mem_walkElements_found_iff

end Schema

end XmlAdvisor
