import XmlAdvisor.Proofs.UnfoldedContent

/-!
# Elements that no content can do without

The elements that are required of a content model are those that a walk finds without looking into
choices. The walk visits no pattern twice, while the words of a content model come from the least
solution of the equations of its schema, in which definitions may lead back to themselves.  Both
meet in single steps: a pattern that is no choice asks for all of its parts, so each of its words
has a word of each part in it.

* `InWords.of_mem` — what is in all words of one pattern is in all words of several patterns with
  it.
* `mem_of_leads` — an element that a content model leads to without a choice is in all of its words.
* `requiredElementPatterns_subset` — each word of patterns has all the elements that are required.
* **`exists_child_of_required`** — each word of names has, for each element that is required, a name
  of its name class.
-/

namespace XmlAdvisor

namespace Schema

variable {s : Schema} {id m p : Nat} {members ids : List Nat}

/-! ## Parts that are asked for -/

/-- Only a pattern that asks for all of its parts has parts that are no choice's. -/
lemma isPlain_of_mem_parts (h : m ∈ s.parts false id) : s.isPlain id = true := by
  rw [parts] at h
  rw [isPlain]
  cases hp : s.pattern id with
  | ref d =>
      rw [hp] at h
      exact Option.isSome_of_mem (Option.mem_toList.mp h)
  | element name content documentation | choice members | notAllowed =>
      rw [hp] at h
      cases h
  | _ => rfl

lemma InWords.nothing (s : Schema) : ∀ members : List Nat, s.InWords members []
  | [] => .nil
  | id :: more =>
      have hnone : ∀ v ∈ s.childPatterns id, List.Subperm [] v := fun _ _ => List.nil_subperm
      .cons hnone (nothing s more)

/-- What is in all words of one pattern is in all words of several patterns with it. -/
lemma InWords.of_mem (hm : m ∈ members) (h : ∀ v ∈ s.childPatterns m, ids.Subperm v) :
    s.InWords members ids := by
  induction members with
  | nil => cases hm
  | cons id more ih =>
      rcases List.mem_cons.mp hm with rfl | hm
      · have hall := InWords.cons h (.nothing s more)
        rwa [List.append_nil] at hall
      · have hnone : ∀ v ∈ s.childPatterns id, List.Subperm [] v := fun _ _ => List.nil_subperm
        exact .cons hnone (ih hm)

/-! ## Elements that are required -/

/-- An element that a content model leads to without a choice is in all of its words. -/
lemma mem_of_leads (hleads : s.Leads false id p) (hp : s.isElement p = true) :
    ∀ w ∈ s.childPatterns id, p ∈ w := by
  -- the induction is on the way; the words only have to solve the equations
  induction hleads using Relation.ReflTransGen.head_induction_on with
  | refl =>
      intro w hw
      rw [childPatterns_of_isElement hp] at hw
      rw [show w = [p] from hw]
      exact List.mem_singleton_self p
  | @head id m hm _ ih =>
      intro w hw
      have hin : s.InWords (s.parts false id) [p] :=
        .of_mem hm fun v hv => List.singleton_subperm_iff.mpr (ih v hv)
      have hmingled := hin.mingled 1 [] fun v _ => List.nil_subperm
      exact List.singleton_subperm_iff.mp
        (subperm_of_mem_childPatterns (isPlain_of_mem_parts hm) hin.prod hmingled hw)

/-- **Each word of patterns has all the elements that are required.** -/
lemma requiredElementPatterns_subset (h : ids ∈ s.childPatterns id) :
    s.requiredElementPatterns id ⊆ ids := by
  intro p hp
  obtain ⟨hleads, helement⟩ := mem_walkElements_found_iff.mp hp
  exact mem_of_leads hleads helement ids h

/-- **Required elements are necessary**: whatever children a content model allows, there is one for
each element that is required, with a name of its name class. -/
theorem exists_child_of_required (s : Schema) {id : Nat} {names : List (String × String)}
    (h : names ∈ s.childNames id) :
    ∀ p ∈ s.requiredElementPatterns id, ∃ n ∈ names, s.admits p n = true := by
  intro p hp
  obtain ⟨ids, hids, hadmits⟩ := s.mem_childNames_iff.mp h
  obtain ⟨i, hi, rfl⟩ := List.getElem_of_mem (requiredElementPatterns_subset hids hp)
  have hi' : i < names.length := hadmits.length_eq ▸ hi
  exact ⟨names[i], List.getElem_mem hi', hadmits.get hi hi'⟩

/-- A list of songs: a song and perhaps another list, by a definition that leads back to itself.
Among the songs stands one element of any other name. -/
def songList : Schema where
  patterns := #[.text, .element (.name "" "song") 0 none, .ref 0, .empty, .choice [2, 3],
    .group [1, 4],
    .element (.anyName (.name "" "song")) 3 none, .interleave [2, 6],
    .element (.name "" "songs") 7 none]
  definitions := #[⟨"songs", some 5⟩]
  start := 8

/-- Two songs with a title between them. -/
theorem exists_child_of_required_songList :
    let names := [("", "song"), ("", "title"), ("", "song")]
    names ∈ songList.childNames 7 ∧ songList.requiredElementPatterns 7 = [1, 6] ∧
      ∀ p ∈ [1, 6], ∃ n ∈ names, songList.admits p n = true := by
  intro names
  have hword : names ∈ songList.childNames 7 :=
    (songList.foldChildren_valid_iff
      [childNamed 1 "song", childNamed 2 "title", childNamed 3 "song"]
      (.pattern 7) (by decide)).mp (by decide)
  have hrequired : songList.requiredElementPatterns 7 = [1, 6] := by decide
  exact ⟨hword, hrequired, hrequired ▸ exists_child_of_required songList hword⟩

end Schema

end XmlAdvisor
