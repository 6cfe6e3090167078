import XmlAdvisor.Proofs.ContentCheck

/-!
# The check against a definition passes valid content

The check against a document type definition looks at two things only: whether the names of the
children occur in the content of the element, and whether the names that must stand are there.  Here
the content of an element gets its language, and nothing that is in it is reported.

* `Particle.language`, `Dtd.contentLanguage` — the sequences of names that a content stands for.
* `Particle.mem_names_of_mem` — the names of a word all occur in the particle.
* `Particle.mem_of_mem_mandatoryNames` — a mandatory name stands in every word.
* **`Dtd.checkContent_of_mem_language`** — valid content is neither unexpected nor incomplete.
-/

namespace XmlAdvisor

open scoped Computability

/-! ## The language of a content -/

/-- The words of a part that stands as often as the occurrence says. -/
def Occurrence.times (o : Occurrence) (l : Language String) : Language String :=
  match o with
  | .once => l
  | .optional => l + 1
  | .zeroOrMore => l∗
  | .oneOrMore => l * l∗

/-- A word of a part that must stand begins with a word of the part itself. -/
lemma Occurrence.exists_append_of_isMandatory {o : Occurrence} (ho : o.isMandatory = true)
    {l : Language String} {w : List String} (hw : w ∈ o.times l) : ∃ u ∈ l, ∃ v, u ++ v = w := by
  cases o with
  | once => exact ⟨w, hw, [], List.append_nil w⟩
  | oneOrMore =>
      obtain ⟨u, hu, v, -, rfl⟩ := Language.mem_mul.mp hw
      exact ⟨u, hu, v, rfl⟩
  | optional => cases ho
  | zeroOrMore => cases ho

lemma exists_mem_of_mem_kstar {l : Language String} {w : List String} (hw : w ∈ l∗) {n : String}
    (hn : n ∈ w) : ∃ u ∈ l, n ∈ u := by
  obtain ⟨parts, rfl, hparts⟩ := Language.mem_kstar.mp hw
  obtain ⟨u, hu, hnu⟩ := List.mem_flatten.mp hn
  exact ⟨u, hparts u hu, hnu⟩

/-- However often a part stands, each name stands in a word of the part itself. -/
lemma Occurrence.exists_mem_of_mem_times {o : Occurrence} {l : Language String} {w : List String}
    (hw : w ∈ o.times l) {n : String} (hn : n ∈ w) : ∃ u ∈ l, n ∈ u := by
  cases o with
  | once => exact ⟨w, hw, hn⟩
  | optional =>
      rcases hw with hw | hw
      · exact ⟨w, hw, hn⟩
      · rw [(Language.mem_one w).mp hw] at hn
        cases hn
  | zeroOrMore => exact exists_mem_of_mem_kstar hw hn
  | oneOrMore =>
      obtain ⟨u, hu, v, hv, rfl⟩ := Language.mem_mul.mp hw
      rcases List.mem_append.mp hn with hn | hn
      · exact ⟨u, hu, hn⟩
      · exact exists_mem_of_mem_kstar hv hn

namespace Particle

mutual
/-- The sequences of names that a particle stands for. -/
def language : Particle → Language String
  | .name n o => o.times {[n]}
  | .sequence members o => o.times (languageOfAll members)
  | .choice members o => o.times (languageOfAny members)

/-- The sequences of names that particles stand for one after another. -/
def languageOfAll : List Particle → Language String
  | [] => 1
  | p :: more => language p * languageOfAll more

/-- The sequences of names that one of several particles stands for. -/
def languageOfAny : List Particle → Language String
  | [] => 0
  | p :: more => language p + languageOfAny more
end

/-! ## Names of words -/

mutual
lemma subset_namesAfter (found : List String) : ∀ p : Particle, found ⊆ namesAfter found p
  | .name n _ => by
      rw [namesAfter]
      split_ifs
      · exact List.Subset.refl found
      · exact List.subset_append_left found [n]
  | .sequence members _ => by
      rw [namesAfter]
      exact subset_namesAfterAll found members
  | .choice members _ => by
      rw [namesAfter]
      exact subset_namesAfterAll found members

lemma subset_namesAfterAll (found : List String) :
    ∀ members : List Particle, found ⊆ namesAfterAll found members
  | [] => by
      rw [namesAfterAll]
      exact List.Subset.refl found
  | p :: more => by
      rw [namesAfterAll]
      exact List.Subset.trans (subset_namesAfter found p) (subset_namesAfterAll _ more)
end

mutual
/-- Collecting the names of a particle leaves out none that stands in a word. -/
lemma mem_namesAfter (found : List String) {n : String} :
    ∀ (p : Particle) {w : List String}, w ∈ p.language → n ∈ w → n ∈ namesAfter found p
  | .name m o, w, hw, hn => by
      rw [language] at hw
      obtain ⟨u, rfl, hnu⟩ := Occurrence.exists_mem_of_mem_times hw hn
      rw [List.mem_singleton.mp hnu, namesAfter]
      split_ifs with hfound
      · exact List.contains_iff_mem.mp hfound
      · simp
  | .sequence members o, w, hw, hn => by
      rw [language] at hw
      obtain ⟨u, hu, hnu⟩ := Occurrence.exists_mem_of_mem_times hw hn
      rw [namesAfter]
      exact mem_namesAfterAll_of_all found members hu hnu
  | .choice members o, w, hw, hn => by
      rw [language] at hw
      obtain ⟨u, hu, hnu⟩ := Occurrence.exists_mem_of_mem_times hw hn
      rw [namesAfter]
      exact mem_namesAfterAll_of_any found members hu hnu

lemma mem_namesAfterAll_of_all (found : List String) {n : String} :
    ∀ (members : List Particle) {w : List String}, w ∈ languageOfAll members → n ∈ w →
      n ∈ namesAfterAll found members
  | [], w, hw, hn => by
      rw [languageOfAll, Language.mem_one] at hw
      rw [hw] at hn
      cases hn
  | p :: more, w, hw, hn => by
      rw [languageOfAll] at hw
      obtain ⟨u, hu, v, hv, rfl⟩ := Language.mem_mul.mp hw
      rw [namesAfterAll]
      rcases List.mem_append.mp hn with hn | hn
      · exact subset_namesAfterAll _ more (mem_namesAfter found p hu hn)
      · exact mem_namesAfterAll_of_all _ more hv hn

lemma mem_namesAfterAll_of_any (found : List String) {n : String} :
    ∀ (members : List Particle) {w : List String}, w ∈ languageOfAny members → n ∈ w →
      n ∈ namesAfterAll found members
  | [], w, hw, hn => by
      rw [languageOfAny] at hw
      cases hw
  | p :: more, w, hw, hn => by
      rw [languageOfAny] at hw
      rw [namesAfterAll]
      rcases hw with hw | hw
      · exact subset_namesAfterAll _ more (mem_namesAfter found p hw hn)
      · exact mem_namesAfterAll_of_any _ more hw hn
end

/-- The names of a word all occur in the particle. -/
lemma mem_names_of_mem {p : Particle} {w : List String} (hw : w ∈ p.language) {n : String}
    (hn : n ∈ w) : n ∈ p.names :=
  mem_namesAfter [] p hw hn

mutual
/-- A mandatory name stands in every word. -/
lemma mem_of_mem_mandatoryNames {n : String} :
    ∀ (p : Particle) {w : List String}, n ∈ p.mandatoryNames → w ∈ p.language → n ∈ w
  | .name m o, w, hn, hw => by
      rw [mandatoryNames] at hn
      split_ifs at hn with ho
      · obtain ⟨u, rfl, v, rfl⟩ := Occurrence.exists_append_of_isMandatory ho hw
        exact List.mem_append_left v hn
      · cases hn
  | .sequence members o, w, hn, hw => by
      rw [mandatoryNames] at hn
      rw [language] at hw
      split_ifs at hn with ho
      · obtain ⟨u, hu, v, rfl⟩ := Occurrence.exists_append_of_isMandatory ho hw
        exact List.mem_append_left v (mem_of_mem_mandatoryNamesOfAll members hn hu)
      · cases hn
  | .choice [only] o, w, hn, hw => by
      rw [mandatoryNames] at hn
      rw [language, languageOfAny, languageOfAny, add_zero] at hw
      split_ifs at hn with ho
      · obtain ⟨u, hu, v, rfl⟩ := Occurrence.exists_append_of_isMandatory ho hw
        exact List.mem_append_left v (mem_of_mem_mandatoryNames only hn hu)
      · cases hn
  | .choice [] o, w, hn, hw => by simp [mandatoryNames] at hn
  | .choice (_ :: _ :: _) o, w, hn, hw => by simp [mandatoryNames] at hn

lemma mem_of_mem_mandatoryNamesOfAll {n : String} :
    ∀ (members : List Particle) {w : List String}, n ∈ mandatoryNamesOfAll members →
      w ∈ languageOfAll members → n ∈ w
  | [], w, hn, hw => by
      rw [mandatoryNamesOfAll] at hn
      cases hn
  | p :: more, w, hn, hw => by
      rw [mandatoryNamesOfAll] at hn
      rw [languageOfAll] at hw
      obtain ⟨u, hu, v, hv, rfl⟩ := Language.mem_mul.mp hw
      rcases List.mem_append.mp hn with hn | hn
      · exact List.mem_append_left v (mem_of_mem_mandatoryNames p hn hu)
      · exact List.mem_append_right u (mem_of_mem_mandatoryNamesOfAll more hn hv)
end

end Particle

/-! ## The check -/

namespace Dtd

variable (d : Dtd) (e : DtdElement)

/-- The sequences of names of children that the content of an element stands for. -/
def contentLanguage : Language String :=
  match e.content with
  | .empty => 1
  | .any => {w | ∀ n ∈ w, n ∈ d.elements.map (·.name)}
  | .mixed names => {w | ∀ n ∈ w, n ∈ names}
  | .children p => p.language

/-- The names of a word of the content are all allowed. -/
lemma mem_allowedNames_of_mem {w : List String} (hw : w ∈ d.contentLanguage e) {n : String}
    (hn : n ∈ w) : n ∈ d.allowedNames e := by
  rw [contentLanguage] at hw
  rw [allowedNames]
  cases hcontent : e.content with
  | empty =>
      rw [hcontent] at hw
      rw [(Language.mem_one w).mp hw] at hn
      cases hn
  | any =>
      rw [hcontent] at hw
      exact hw n hn
  | mixed names =>
      rw [hcontent] at hw
      exact hw n hn
  | children p =>
      rw [hcontent] at hw
      exact Particle.mem_names_of_mem hw hn

/-- A mandatory name of an element stands in every word of its content. -/
lemma mem_of_mem_mandatoryNames {w : List String} (hw : w ∈ d.contentLanguage e) {n : String}
    (hn : n ∈ e.mandatoryNames) : n ∈ w := by
  rw [contentLanguage] at hw
  rw [DtdElement.mandatoryNames] at hn
  cases hcontent : e.content with
  | children p =>
      rw [hcontent] at hn hw
      exact Particle.mem_of_mem_mandatoryNames p hn hw
  | empty => simp [hcontent] at hn
  | any => simp [hcontent] at hn
  | mixed names => simp [hcontent] at hn

/-- **The check against a definition passes valid content.**  Children whose names form a word of
the content are all expected and nothing is missing; in particular, every word has all mandatory
names in it. -/
theorem checkContent_of_mem_language :
    (∀ children : List ElementNode,
      children.map (·.element.tagName) ∈ d.contentLanguage e →
      (Declaration.dtd d e).checkContent children = ⟨[], false, []⟩) ∧
    ∀ w ∈ d.contentLanguage e, ∀ n ∈ e.mandatoryNames, n ∈ w := by
  refine ⟨fun children hchildren => ?_, fun w hw n hn => d.mem_of_mem_mandatoryNames e hw hn⟩
  have hunexpected : (children.filterMap fun c : ElementNode =>
      if (d.allowedNames e).contains c.element.tagName then none
      else some (⟨c.id, d.allowedNames e⟩ : UnexpectedChild)) = [] := by
    refine List.filterMap_eq_nil_iff.mpr fun c hc => if_pos ?_
    exact List.contains_iff_mem.mpr
      (d.mem_allowedNames_of_mem e hchildren (List.mem_map_of_mem hc))
  have hmissing : (e.mandatoryNames.filter fun n =>
      !((d.allowedNames e).contains n && (children.map (·.element.tagName)).contains n)) = [] := by
    refine List.filter_eq_nil_iff.mpr fun n hn => ?_
    have hword := d.mem_of_mem_mandatoryNames e hchildren hn
    simp [d.mem_allowedNames_of_mem e hchildren hword, List.mem_map.mp hword]
  rw [Declaration.checkContent, checkContent]
  simp only [hunexpected, hmissing, List.isEmpty_nil, Bool.not_true]

/-- A book: a title, then chapters and parts in any order, then perhaps an index. -/
def book : DtdElement where
  name := "book"
  content := .children (.sequence
    [.name "title" .once,
      .choice [.name "chapter" .once, .name "part" .once] .oneOrMore,
      .choice [.name "index" .optional] .once] .once)
  attributes := []
  documentation := none

lemma mem_contentLanguage_book :
    ["title", "part", "chapter"] ∈ (Dtd.mk [book]).contentLanguage book := by
  have hpart : ["part"] ∈ Particle.languageOfAny [.name "chapter" .once, .name "part" .once] :=
    .inr (.inl rfl)
  have hchapter : ["chapter"] ∈ Particle.languageOfAny
      [.name "chapter" .once, .name "part" .once] :=
    .inl rfl
  have hparts : ["part", "chapter"] ∈
      Particle.language (.choice [.name "chapter" .once, .name "part" .once] .oneOrMore) :=
    Language.mem_mul.mpr ⟨["part"], hpart, ["chapter"], Language.mem_kstar.mpr ⟨[["chapter"]], rfl,
      fun u hu => List.mem_singleton.mp hu ▸ hchapter⟩, rfl⟩
  have hindex : [] ∈ Particle.language (.choice [.name "index" .optional] .once) :=
    .inl (.inr rfl)
  exact Language.mem_mul.mpr ⟨["title"], rfl, ["part", "chapter"],
    Language.mem_mul.mpr ⟨_, hparts, [], Language.mem_mul.mpr ⟨[], hindex, [], rfl, rfl⟩, rfl⟩, rfl⟩

theorem checkContent_book :
    let children := [Schema.childNamed 1 "title", Schema.childNamed 2 "part",
      Schema.childNamed 3 "chapter"]
    book.mandatoryNames = ["title"] ∧
    (Declaration.dtd ⟨[book]⟩ book).checkContent children = ⟨[], false, []⟩ :=
  ⟨by decide, ((Dtd.mk [book]).checkContent_of_mem_language book).1 _ mem_contentLanguage_book⟩

end Dtd

end XmlAdvisor
