import XmlAdvisor.Proofs.AttributeReach

/-!
# Ways to attributes

Which attributes a content model has, and which of them are required, is said here by the ways that
lead to them.  A way goes from a pattern to a member, to what is repeated, or to the body of a
definition, and enters no element, list or attribute.  Since definitions may lead back to themselves
there may be any number of ways to an attribute, some through choices and some not, and a walk may
meet it behind a choice first.

* `Schema.Step`, `Schema.Way` — a way, with the patterns that it goes through.
* `leads_true_iff_way`, `leads_false_iff_way` — reachability in terms of ways.
* **`attributePatterns_exact`** — each attribute with a way to it is listed once, and it is required
  exactly if one of its ways goes through no choice.
-/

namespace XmlAdvisor

namespace Schema

variable {s : Schema} {id m p : Nat}

/-! ## Ways -/

/-- Where a way can go on from a pattern.  There is no rule for elements, lists and attributes. -/
inductive Step (s : Schema) (id : Nat) : Nat → Prop
  | choice {members : List Nat} {m : Nat} (hp : s.pattern id = .choice members) (hm : m ∈ members) :
    Step s id m
  | group {members : List Nat} {m : Nat} (hp : s.pattern id = .group members) (hm : m ∈ members) :
    Step s id m
  | interleave {members : List Nat} {m : Nat} (hp : s.pattern id = .interleave members)
    (hm : m ∈ members) : Step s id m
  | oneOrMore {body : Nat} (hp : s.pattern id = .oneOrMore body) : Step s id body
  | ref {d body : Nat} (hp : s.pattern id = .ref d) (hb : s.body? d = some body) : Step s id body

/-- A way from one pattern to another.  The list holds the patterns that it goes through: all but
the last. -/
inductive Way (s : Schema) : Nat → List Nat → Nat → Prop
  | arrived (id : Nat) : Way s id [] id
  | step {id m p : Nat} {through : List Nat} (hstep : s.Step id m) (hway : Way s m through p) :
    Way s id (id :: through) p

lemma step_iff : s.Step id m ↔ m ∈ s.parts true id := by
  constructor
  · intro h
    cases h with
    | choice hp hm | group hp hm | interleave hp hm => simpa [parts, hp] using hm
    | oneOrMore hp => simp [parts, hp]
    | ref hp hb => simp [parts, hp, hb]
  · intro hm
    rw [parts] at hm
    cases hp : s.pattern id with
    | choice members =>
        rw [hp] at hm
        exact .choice hp hm
    | group members =>
        rw [hp] at hm
        exact .group hp hm
    | interleave members =>
        rw [hp] at hm
        exact .interleave hp hm
    | oneOrMore body =>
        rw [hp] at hm
        exact List.mem_singleton.mp hm ▸ .oneOrMore hp
    | ref d =>
        rw [hp] at hm
        exact .ref hp (Option.mem_toList.mp hm)
    | _ =>
        rw [hp] at hm
        cases hm

/-! ## Reachability in terms of ways -/

lemma leads_true_iff_way : s.Leads true id p ↔ ∃ through, s.Way id through p := by
  constructor
  · intro h
    induction h using Relation.ReflTransGen.head_induction_on with
    | refl => exact ⟨[], .arrived p⟩
    | head hm _ ih =>
        obtain ⟨through, hway⟩ := ih
        exact ⟨_, .step (step_iff.mpr hm) hway⟩
  · rintro ⟨through, hway⟩
    induction hway with
    | arrived id => exact .refl
    | step hstep _ ih => exact .head (step_iff.mp hstep) ih

/-- A choice cannot be gone on from where choices are not looked into. -/
lemma leads_false_iff_way :
    s.Leads false id p ↔ ∃ through, s.Way id through p ∧ ∀ q ∈ through, s.isChoice q = false := by
  constructor
  · intro h
    induction h using Relation.ReflTransGen.head_induction_on with
    | refl => exact ⟨[], .arrived p, by simp⟩
    | head hm _ ih =>
        obtain ⟨through, hway, hfree⟩ := ih
        rw [parts_false] at hm
        split_ifs at hm with hchoice
        · cases hm
        · rw [Bool.not_eq_true] at hchoice
          exact ⟨_, .step (step_iff.mpr hm) hway, List.forall_mem_cons.mpr ⟨hchoice, hfree⟩⟩
  · rintro ⟨through, hway, hfree⟩
    induction hway with
    | arrived id => exact .refl
    | step hstep _ ih =>
        obtain ⟨hchoice, hfree⟩ := List.forall_mem_cons.mp hfree
        refine .head ?_ (ih hfree)
        rw [parts_false, hchoice]
        exact step_iff.mp hstep

/-! ## The attributes that are listed -/

/-- **The attributes of a content model are listed exactly**: no attribute twice, each one that some
way leads to and no other, and as required just those that a way through no choice leads to. -/
theorem attributePatterns_exact (s : Schema) (id : Nat) :
    ((s.attributePatterns id).map Prod.fst).Nodup ∧ ∀ p,
      (p ∈ (s.attributePatterns id).map Prod.fst ↔
        s.isAttribute p = true ∧ ∃ through, s.Way id through p) ∧
      ((p, true) ∈ s.attributePatterns id ↔ s.isAttribute p = true ∧
        ∃ through, s.Way id through p ∧ ∀ q ∈ through, s.isChoice q = false) := by
  refine ⟨nodup_attributePatterns, fun p => ⟨?listed, ?required⟩⟩
  case listed =>
    rw [← leads_true_iff_way, List.mem_map]
    constructor
    · rintro ⟨⟨p, r⟩, hmem, rfl⟩
      obtain ⟨hp, hleads, -⟩ := mem_attributePatterns_iff.mp hmem
      exact ⟨hp, hleads⟩
    · rintro ⟨hp, hleads⟩
      obtain ⟨r, hmem⟩ := exists_mem_attributePatterns hp hleads
      exact ⟨(p, r), hmem, rfl⟩
  case required =>
    rw [mem_attributePatterns_iff, ← leads_false_iff_way]
    constructor
    · rintro ⟨hp, -, hrequired⟩
      exact ⟨hp, hrequired.mp rfl⟩
    · rintro ⟨hp, hleads⟩
      -- a way through no choice is a way
      obtain ⟨through, hway, -⟩ := leads_false_iff_way.mp hleads
      exact ⟨hp, leads_true_iff_way.mpr ⟨through, hway⟩, iff_of_true rfl hleads⟩

/-- A definition that leads back to itself behind a choice.  Its attribute is met there first and
becomes required when it is met again. -/
example : attributePatterns ⟨#[.text, .attribute (.name "" "a") 0 none none, .ref 0, .empty,
    .choice [1, 2, 3], .group [4, 1]], #[⟨"again", some 5⟩], 5⟩ 2 = [(1, true)] := by
  decide

end Schema

end XmlAdvisor
