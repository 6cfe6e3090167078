import XmlAdvisor.Proofs.DefinitionAssembly
import XmlAdvisor.Proofs.SubsetGrammar

/-!
# Which external subsets are read

An external subset is markup with white space and conditional sections between.  A section holds
either a text that is ignored or an external subset of its own, so sections can stand inside one
another.  Reading takes a section to end at the first `]]>` behind its beginning.

* `SubsetItem` — what a subset is made of; `SubsetItem.IsWritten` — what XML's grammar allows.
* `EndsFirst` — a section holds no `]]>`; `MarksSections` — no `]]>` stands anywhere but at the end
  of a section.
* `exists_tiled` — a subset whose sections hold no `]]>` is markup with white space between.
* `exists_end_of_section`, `exists_end_of_all` — where the first `]]>` is otherwise: with a section
  inside another, some items are left behind it and one more `]]>` behind them.
* `unreadable_behind` — no such rest is read.
* **`Dtd.read_subset`** — every subset is read whose sections hold no `]]>`, and none in which a
  section stands inside another one.
* `Dtd.read_drafts` — a subset with a section that a parameter entity decides about.
* `Dtd.read_nested_sections` — a subset with a section inside another one.
-/

namespace XmlAdvisor

open scoped Computability

namespace Subset

open Spelling (text blanks)

/-! ## Conditional sections -/

/-- Whether a section counts, which may be left to a parameter entity. -/
def sectionHead (s : String) : Language Char :=
  blanks * ((text s + reference) * blanks)

/-- A text that is ignored, with at most so many sections inside one another. -/
def ignoredWithin : (depth : Nat) → Language Char
  | 0 => without "<![" ⊓ without "]]>"
  | depth + 1 => ignoredWithin 0 *
      (text "<![" * (ignoredWithin depth * (text "]]>" * ignoredWithin 0)))∗

/-- A text that is ignored. -/
def ignoredText : Language Char :=
  {w | ∃ depth, w ∈ (ignoredWithin depth)∗}

lemma mem_ignoredText {w : List Char} (hbegin : ¬"<![".toList <:+: w)
    (hend : ¬"]]>".toList <:+: w) :
    w ∈ ignoredText := by
  have hmem : w ∈ ignoredWithin 0 := by
    rw [ignoredWithin]
    exact ⟨hbegin, hend⟩
  exact ⟨0, Language.mem_kstar.mpr ⟨[w], by simp, by simpa using hmem⟩⟩

end Subset

open Subset

/-- What an external subset is made of. -/
inductive SubsetItem
  | space (w : List Char)
  | markup (w : List Char)
  | ignored (head body : List Char)
  | included (head : List Char) (items : List SubsetItem)

namespace SubsetItem

/-- What stands in a section that begins with a head. -/
def sectionText (head body : List Char) : List Char :=
  head ++ '[' :: body

mutual
/-- An item as it is written. -/
def chars : SubsetItem → List Char
  | .space w | .markup w => w
  | .ignored head body => "<![".toList ++ (sectionText head body ++ "]]>".toList)
  | .included head items => "<![".toList ++ (sectionText head (charsOfAll items) ++ "]]>".toList)

/-- Items as they are written. -/
def charsOfAll : List SubsetItem → List Char
  | [] => []
  | i :: more => i.chars ++ charsOfAll more
end

mutual
/-- Whether XML's grammar allows an item. -/
def IsWritten : SubsetItem → Prop
  | .space w => w ∈ Spelling.blanks
  | .markup w => w ∈ Subset.markup
  | .ignored head body => head ∈ sectionHead "IGNORE" ∧ body ∈ ignoredText
  | .included head items => head ∈ sectionHead "INCLUDE" ∧ AreWritten items

def AreWritten : List SubsetItem → Prop
  | [] => True
  | i :: more => i.IsWritten ∧ AreWritten more
end

mutual
/-- Whether `]]>` stands in an item only where a section ends. -/
def MarksSections : SubsetItem → Prop
  | .space _ => True
  | .markup w => ¬"]]>".toList <:+: w
  | .ignored _ body => ¬"]]>".toList <:+: body
  | .included _ items => AllMarkSections items

def AllMarkSections : List SubsetItem → Prop
  | [] => True
  | i :: more => i.MarksSections ∧ AllMarkSections more
end

/-- Whether a section ends at the first `]]>` in it. -/
def EndsFirst : SubsetItem → Prop
  | .space _ | .markup _ => True
  | .ignored head body => StopsAt "]]>".toList (sectionText head body)
  | .included head items => StopsAt "]]>".toList (sectionText head (charsOfAll items))

def isSection : SubsetItem → Bool
  | .space _ | .markup _ => false
  | .ignored .. | .included .. => true

/-- Whether an item is a section with another one inside. -/
def nests : SubsetItem → Bool
  | .included _ items => items.any isSection
  | _ => false

lemma areWritten_iff {items : List SubsetItem} : AreWritten items ↔ ∀ i ∈ items, i.IsWritten := by
  induction items with
  | nil => exact iff_of_true trivial nofun
  | cons i more ih => rw [AreWritten, ih, List.forall_mem_cons]

lemma allMarkSections_iff {items : List SubsetItem} :
    AllMarkSections items ↔ ∀ i ∈ items, i.MarksSections := by
  induction items with
  | nil => exact iff_of_true trivial nofun
  | cons i more ih => rw [AllMarkSections, ih, List.forall_mem_cons]

/-! ## Sections that end at the first mark -/

/-- Such a section is one markup, and so is all else but white space. -/
lemma blank_or_isMarkup {i : SubsetItem} (h : i.IsWritten) (hends : i.EndsFirst) :
    (∀ c ∈ i.chars, isXmlSpace c = true) ∨ ∃ p, IsMarkup i.chars p := by
  cases i with
  | space w => exact .inl h
  | markup w => exact .inr (exists_isMarkup_of_mem h)
  | ignored head body => exact .inr ⟨_, .enclosed .conditional hends⟩
  | included head items => exact .inr ⟨_, .enclosed .conditional hends⟩

lemma exists_tiled {items : List SubsetItem} (h : AreWritten items)
    (hends : ∀ i ∈ items, i.EndsFirst) :
    ∃ ps, Tiled (charsOfAll items) ps := by
  induction items with
  | nil => exact ⟨[], by simpa [charsOfAll] using .blank (b := []) nofun⟩
  | cons i more ih =>
      obtain ⟨ps, hps⟩ := ih h.2 fun j hj => hends j (List.mem_cons_of_mem i hj)
      rw [charsOfAll]
      rcases blank_or_isMarkup h.1 (hends i (List.mem_cons_self ..)) with hblank | ⟨p, hp⟩
      · exact ⟨ps, hps.behindBlank hblank⟩
      · exact ⟨[p] ++ ps, (Tiled.of_markup hp).append hps⟩

/-! ## What is not read -/

/-- Whether a text is not markup with white space between. -/
def Unreadable (text : List Char) : Prop :=
  ∀ ps, ¬Tiled text ps

lemma Unreadable.behindMarkup {w rest : List Char} {p : DtdPiece} (h : Unreadable rest)
    (hw : IsMarkup w p) : Unreadable (w ++ rest) := by
  intro ps htiled
  have hread : readPiece (w ++ rest) = .ok (p, rest) := readPiece_eq_ok_iff.mpr ⟨w, hw, rfl⟩
  obtain ⟨c, cs, rfl, hc⟩ := hw.exists_cons
  rw [List.cons_append] at htiled hread
  obtain ⟨q, behind, more, hq, hmore, -⟩ := (tiled_append_cons_iff (b := []) nofun hc).mp htiled
  cases hread.symm.trans hq
  exact h more hmore

lemma Unreadable.behindBlank {b rest : List Char} (h : Unreadable rest)
    (hb : ∀ c ∈ b, isXmlSpace c = true) : Unreadable (b ++ rest) := by
  intro ps htiled
  obtain ⟨b', rest, hb', hahead, rfl⟩ := exists_blank_append rest
  cases rest with
  | nil => exact h [] (.blank (by simpa using hb'))
  | cons c cs =>
      have hc := hahead c rfl
      have hboth : ∀ d ∈ b ++ b', isXmlSpace d = true :=
        fun d hd => (List.mem_append.mp hd).elim (hb d) (hb' d)
      rw [← List.append_assoc, tiled_append_cons_iff hboth hc,
        ← tiled_append_cons_iff hb' hc] at htiled
      exact h ps htiled

/-- Nothing begins with the end of a section. -/
lemma unreadable_end (rest : List Char) : Unreadable ("]]>".toList ++ rest) := by
  intro ps htiled
  have hcons : Tiled ([] ++ ']' :: (']' :: '>' :: rest)) ps := htiled
  obtain ⟨p, behind, more, hread, -, -⟩ := (tiled_append_cons_iff (b := []) nofun rfl).mp hcons
  cases hread

/-! ## Where the first mark is -/

/-- Whether some items are left and the end of a section behind them. -/
def LeftOpen (rest : List Char) : Prop :=
  ∃ items tail, rest = charsOfAll items ++ ("]]>".toList ++ tail) ∧ AreWritten items ∧
    AllMarkSections items

lemma notMem_of_mem_sectionHead {s : String} (hs : ']' ∉ s.toList) {w : List Char}
    (hw : w ∈ sectionHead s) : ']' ∉ w := by
  obtain ⟨b, hb, v, hv, rfl⟩ := Language.mem_mul.mp hw
  obtain ⟨k, hk, b', hb', rfl⟩ := Language.mem_mul.mp hv
  have hblank {b : List Char} (hb : b ∈ Spelling.blanks) : ']' ∉ b :=
    fun hmem => absurd (hb _ hmem) (by decide)
  have hkey : ']' ∉ k := by
    rcases hk with rfl | hk
    · exact hs
    · obtain ⟨u, rfl, rest, hrest, rfl⟩ := Language.mem_mul.mp hk
      obtain ⟨n, hn, u, rfl, rfl⟩ := Language.mem_mul.mp hrest
      have hname : ']' ∉ n := notMem_of_mem_name hn (by decide)
      simp [hname]
  simp [hblank hb, hblank hb', hkey]

/-- No `]]>` reaches from the head of a section into what stands behind it. -/
lemma not_infix_sectionText {head body : List Char} (hhead : ']' ∉ head)
    (hbody : ¬"]]>".toList <:+: body) : ¬"]]>".toList <:+: sectionText head body := by
  have hfree : ']' ∉ head ++ ['['] := by simp [hhead]
  have happend := not_infix_append (not_infix_of_notMem (by decide) hfree) hbody
    (fun c hc hmark => by
      rw [List.getLast?_concat, Option.mem_some_iff] at hc
      exact absurd (hc ▸ hmark) (by decide))
  rwa [List.append_assoc] at happend

/-- Items other than sections end in a character that stands in `]]>` last or not at all. -/
lemma getLast?_of_isMarkup {w : List Char} {p : DtdPiece} (h : IsMarkup w p) :
    ∀ c ∈ w.getLast?, c ∉ "]]>".toList.dropLast := by
  have hends {inner : List Char} (hinner : EndsDeclaration inner) (front : List Char) :
      ∀ c ∈ (front ++ inner).getLast?, c ∉ "]]>".toList.dropLast := by
    obtain ⟨inner, rfl, -⟩ := hinner
    rw [← List.append_assoc, List.getLast?_concat]
    rintro _ ⟨⟩
    decide
  cases h with
  | declared d hinner => exact hends hinner _
  | other _ hinner => exact hends hinner _
  | enclosed e =>
      have hlast : ∃ front x, e.ending.toList = front ++ [x] ∧ x ∉ "]]>".toList.dropLast := by
        cases e with
        | comment => exact ⟨['-', '-'], '>', rfl, by decide⟩
        | instruction => exact ⟨['?'], '>', rfl, by decide⟩
        | conditional => exact ⟨[']', ']'], '>', rfl, by decide⟩
        | entityReference => exact ⟨[], ';', rfl, by decide⟩
      obtain ⟨front, x, hending, hx⟩ := hlast
      rw [hending, ← List.append_assoc, ← List.append_assoc, List.getLast?_concat]
      rintro _ ⟨⟩
      exact hx

/-- An item that is no section does not hold the mark, and neither does what it is put in front
of. -/
lemma not_infix_chars_append {i : SubsetItem} (h : i.IsWritten) (hmarks : i.MarksSections)
    (hno : i.isSection = false) {v : List Char} (hv : ¬"]]>".toList <:+: v) :
    ¬"]]>".toList <:+: i.chars ++ v := by
  cases i with
  | space w =>
      have hfree : ']' ∉ w := fun hmem => absurd (h _ hmem) (by decide)
      refine not_infix_append (not_infix_of_notMem (by decide) hfree) hv fun c hc hmark => ?_
      have hbracket : c = ']' := by simpa using hmark
      exact hfree (hbracket ▸ List.mem_of_getLast? hc)
  | markup w =>
      obtain ⟨p, hp⟩ := exists_isMarkup_of_mem h
      exact not_infix_append hmarks hv (getLast?_of_isMarkup hp)
  | ignored => cases hno
  | included => cases hno

-- The first `]]>` in a section is its own or that of a section inside it, so the two lemmas go down
-- together.
mutual
/-- In a section, its own end is the first mark or items of it are left behind that. -/
lemma exists_end_of_section (i : SubsetItem) (h : i.IsWritten) (hmarks : i.MarksSections)
    (hsection : i.isSection = true) (tail : List Char) : ∃ before rest,
      i.chars ++ tail = "<![".toList ++ (before ++ ("]]>".toList ++ rest)) ∧
      ¬"]]>".toList <:+: before ∧
      (i.nests = false ∧ rest = tail ∨ i.nests = true ∧ LeftOpen rest) := by
  match i with
  | .space _ => cases hsection
  | .markup _ => cases hsection
  | .ignored head body =>
      refine ⟨sectionText head body, tail, by simp [chars], ?_, .inl ⟨rfl, rfl⟩⟩
      exact not_infix_sectionText (notMem_of_mem_sectionHead (by decide) h.1) hmarks
  | .included head items =>
      obtain ⟨before, rest, hsplit, hfree, hrest⟩ := exists_end_of_all items h.2 hmarks tail
      refine ⟨sectionText head before, rest, ?_, ?_, hrest⟩
      · simp only [chars, sectionText, List.append_assoc, List.cons_append, hsplit]
      · exact not_infix_sectionText (notMem_of_mem_sectionHead (by decide) h.1) hfree

/-- In front of the end of a section, that is the first mark or items are left behind the first
one. -/
lemma exists_end_of_all (items : List SubsetItem) (h : AreWritten items)
    (hmarks : AllMarkSections items)
    (tail : List Char) : ∃ before rest,
      charsOfAll items ++ ("]]>".toList ++ tail) = before ++ ("]]>".toList ++ rest) ∧
      ¬"]]>".toList <:+: before ∧
      (items.any isSection = false ∧ rest = tail ∨ items.any isSection = true ∧ LeftOpen rest) := by
  match items with
  | [] => exact ⟨[], tail, rfl, by decide, .inl ⟨rfl, rfl⟩⟩
  | i :: more =>
      cases hsection : i.isSection with
      | false =>
          obtain ⟨before, rest, hsplit, hfree, hrest⟩ := exists_end_of_all more h.2 hmarks.2 tail
          refine ⟨i.chars ++ before,
            rest, by rw [charsOfAll, List.append_assoc, hsplit, List.append_assoc],
            not_infix_chars_append h.1 hmarks.1 hsection hfree, ?_⟩
          rwa [List.any_cons, hsection, Bool.false_or]
      | true =>
          obtain ⟨before, rest, hsplit, hfree, hrest⟩ :=
            exists_end_of_section i h.1 hmarks.1 hsection
            (charsOfAll more ++ ("]]>".toList ++ tail))
          have hopen : LeftOpen rest := by
            rcases hrest with ⟨-, rfl⟩ | ⟨-, hopen⟩
            · exact ⟨more, tail, rfl, h.2, hmarks.2⟩
            · exact hopen
          refine ⟨"<![".toList ++ before, rest, ?_, ?_,
            .inr ⟨by rw [List.any_cons, hsection]; rfl, hopen⟩⟩
          · rw [charsOfAll, List.append_assoc, hsplit, List.append_assoc]
          · refine not_infix_append (by decide) hfree ?_
            rintro _ ⟨⟩
            decide
end

/-! ## Sections inside sections -/

lemma isMarkup_of_free {before : List Char} (h : ¬"]]>".toList <:+: before) :
    IsMarkup ("<![".toList ++ (before ++ "]]>".toList)) .breaking :=
  .enclosed .conditional (stopsAt_of_free [']', ']'] (by decide : '>' ∉ [']', ']']) h)

/-- A section is followed by what is left behind the first mark in it. -/
lemma Unreadable.behindSection {before rest text : List Char} (h : Unreadable rest)
    (hfree : ¬"]]>".toList <:+: before)
    (htext : text = "<![".toList ++ (before ++ ("]]>".toList ++ rest))) : Unreadable text := by
  have hbehind := h.behindMarkup (isMarkup_of_free hfree)
  rw [List.append_assoc, List.append_assoc] at hbehind
  exact htext ▸ hbehind

/-- Items with the end of a section behind them are not read, however many sections they hold. -/
lemma unreadable_behind (n : Nat) {items : List SubsetItem} (h : AreWritten items)
    (hmarks : AllMarkSections items) (tail : List Char)
    (hn : (charsOfAll items ++ ("]]>".toList ++ tail)).length ≤ n) :
    Unreadable (charsOfAll items ++ ("]]>".toList ++ tail)) := by
  induction n using Nat.strongRecOn generalizing items tail with
  | ind n ih =>
      induction items with
      | nil => exact unreadable_end tail
      | cons i more ihmore =>
          rw [charsOfAll, List.append_assoc] at hn ⊢
          have hmore : Unreadable (charsOfAll more ++ ("]]>".toList ++ tail)) :=
            ihmore h.2 hmarks.2 (by rw [List.length_append] at hn; omega)
          cases hsection : i.isSection with
          | false =>
              have hends : i.EndsFirst := by
                cases i <;> first | exact trivial | cases hsection
              rcases blank_or_isMarkup h.1 hends with hblank | ⟨p, hp⟩
              · exact hmore.behindBlank hblank
              · exact hmore.behindMarkup hp
          | true =>
              obtain ⟨before, rest, hsplit, hfree, hrest⟩ :=
                exists_end_of_section i h.1 hmarks.1 hsection
                (charsOfAll more ++ ("]]>".toList ++ tail))
              refine Unreadable.behindSection ?_ hfree hsplit
              rcases hrest with ⟨-, rfl⟩ | ⟨-, items, tail, rfl, hitems, hall⟩
              · exact hmore
              · have hlength := congrArg List.length hsplit
                have hmark : "<![".toList.length = 3 := by decide
                simp only [List.length_append] at hlength hn
                refine ih (n - 1) (by omega) hitems hall tail ?_
                simp only [List.length_append]
                omega

lemma unreadable_of_leftOpen {rest : List Char} (h : LeftOpen rest) : Unreadable rest := by
  obtain ⟨items, tail, rfl, hitems, hall⟩ := h
  exact unreadable_behind _ hitems hall tail (Nat.le_refl _)

/-- Where `]]>` stands only at the end of sections, a section ends at the first one if none is
inside. -/
lemma endsFirst_of_not_nests {i : SubsetItem} (h : i.IsWritten) (hmarks : i.MarksSections)
    (hno : i.nests = false) : i.EndsFirst := by
  have hstops {body : List Char} (hsection : i.isSection = true)
      (hbody : i.chars = "<![".toList ++ (body ++ "]]>".toList)) : StopsAt "]]>".toList body := by
    obtain ⟨before, rest, hsplit, hfree, hrest⟩ := exists_end_of_section i h hmarks hsection []
    obtain ⟨-, rfl⟩ := hrest.resolve_right fun hnests => by simp [hno] at hnests
    rw [List.append_nil, List.append_nil, hbody] at hsplit
    rw [List.append_cancel_right (List.append_cancel_left hsplit)]
    exact stopsAt_of_free [']', ']'] (by decide : '>' ∉ [']', ']']) hfree
  cases i with
  | space => trivial
  | markup => trivial
  | ignored head body => exact hstops rfl (by rw [chars])
  | included head items => exact hstops rfl (by rw [chars])

/-- A section with another one inside makes a subset unreadable. -/
lemma unreadable_of_nests {items : List SubsetItem} (h : AreWritten items)
    (hmarks : AllMarkSections items) {i : SubsetItem} (hi : i ∈ items) (hnests : i.nests = true) :
    Unreadable (charsOfAll items) := by
  induction items with
  | nil => cases hi
  | cons j more ih =>
      rw [charsOfAll]
      cases hj : j.nests with
      | true =>
          have hsection : j.isSection = true := by
            cases j <;> first | rfl | cases hj
          obtain ⟨before, rest, hsplit, hfree, hrest⟩ :=
            exists_end_of_section j h.1 hmarks.1 hsection (charsOfAll more)
          obtain ⟨-, hopen⟩ := hrest.resolve_left fun hflat => by simp [hj] at hflat
          exact (unreadable_of_leftOpen hopen).behindSection hfree hsplit
      | false =>
          have hmem : i ∈ more := (List.mem_cons.mp hi).resolve_left
            fun heq => by simp [← heq, hnests] at hj
          have hmore := ih h.2 hmarks.2 hmem
          rcases blank_or_isMarkup h.1 (endsFirst_of_not_nests h.1 hmarks.1 hj) with
            hblank | ⟨p, hp⟩
          · exact hmore.behindBlank hblank
          · exact hmore.behindMarkup hp

end SubsetItem

namespace Dtd

open SubsetItem

lemma exists_read_iff {text : List Char} : (∃ d, Dtd.read text = .ok d) ↔ ∃ ps, Tiled text ps := by
  constructor
  · rintro ⟨d, hd⟩
    obtain ⟨ps, hps, -⟩ := read_eq_ok_iff.mp hd
    exact ⟨ps, hps⟩
  · rintro ⟨ps, hps⟩
    exact ⟨_, read_eq_ok_iff.mpr ⟨ps, hps, rfl⟩⟩

/-- **Which external subsets are read.**  Whatever XML's grammar lets stand in an external subset,
it is read as a whole if each of its conditional sections ends at the first `]]>` in it.  Where
`]]>` stands nowhere but at the ends of sections, a subset is read exactly if no section stands
inside another one. -/
theorem read_subset {items : List SubsetItem} (h : AreWritten items) :
    ((∀ i ∈ items, i.EndsFirst) → ∃ d, Dtd.read (charsOfAll items) = .ok d) ∧
    (AllMarkSections items →
      ((∃ d, Dtd.read (charsOfAll items) = .ok d) ↔ ∀ i ∈ items, i.nests = false)) := by
  have hread (hends : ∀ i ∈ items, i.EndsFirst) : ∃ d, Dtd.read (charsOfAll items) = .ok d :=
    exists_read_iff.mpr (exists_tiled h hends)
  refine ⟨hread, fun hmarks => ⟨fun hsome i hi => ?_, fun hflat => hread fun i hi => ?_⟩⟩
  · obtain ⟨ps, hps⟩ := exists_read_iff.mp hsome
    rw [← Bool.not_eq_true]
    exact fun hnests => unreadable_of_nests h hmarks hi hnests ps hps
  · exact endsFirst_of_not_nests (areWritten_iff.mp h i hi) (allMarkSections_iff.mp hmarks i hi)
      (hflat i hi)

/-- A declaration that is left out as long as the entity `draft` says so. -/
def drafts : List SubsetItem :=
  [.markup "<!ENTITY % draft 'IGNORE'>".toList, .space ['\n'],
    .ignored "%draft;".toList "<!ELEMENT a EMPTY>".toList, .markup "%common;".toList]

lemma areWritten_drafts : AreWritten drafts := by
  have hreference {n : List Char} (hn : n ∈ Subset.name) : '%' :: (n ++ [';']) ∈ Subset.reference :=
    Language.mem_mul.mpr ⟨['%'], rfl, _, Language.mem_mul.mpr ⟨n, hn, [';'], rfl, rfl⟩, rfl⟩
  have hdraft : "draft".toList ∈ Subset.name := ⟨⟨by decide, List.all_eq_true.mp rfl⟩, by decide⟩
  have hcommon : "common".toList ∈ Subset.name := ⟨⟨by decide, List.all_eq_true.mp rfl⟩, by decide⟩
  have hline : ['\n'] ∈ Spelling.blanks := fun _ hc => List.mem_singleton.mp hc ▸ rfl
  refine ⟨.inl (.inl (.inl (.inl (.inr ?_)))), hline, ⟨?_, ?_⟩, .inr (hreference hcommon), trivial⟩
  · refine mem_mul_of_cut 8 rfl (mem_mul_of_cut 17 (.inl (.inr ?_)) rfl)
    refine mem_mul_of_cut 1 space_mem_someBlanks (mem_mul_of_cut 1 rfl ?_)
    refine mem_mul_of_cut 1 space_mem_someBlanks (mem_mul_of_cut 5 hdraft ?_)
    refine mem_mul_of_cut 1 space_mem_someBlanks (mem_mul_of_cut 8 (.inl ?_) nil_mem_blanks)
    exact ⟨'\'', "IGNORE".toList, .inr rfl, by decide, rfl⟩
  · exact mem_mul_of_cut 0 nil_mem_blanks
      (mem_mul_of_cut 7 (.inr (hreference hdraft)) nil_mem_blanks)
  · exact mem_ignoredText (by decide) (by decide)

theorem read_drafts : AreWritten drafts ∧ (∀ i ∈ drafts, i.EndsFirst) ∧ AllMarkSections drafts ∧
    (∀ i ∈ drafts, i.nests = false) ∧ ∃ d, Dtd.read (charsOfAll drafts) = .ok d := by
  have hmarks : AllMarkSections drafts := by
    simp only [drafts, AllMarkSections, MarksSections]
    decide
  have hends : ∀ i ∈ drafts, i.EndsFirst := by
    have hsection : StopsAt "]]>".toList
        (sectionText "%draft;".toList "<!ELEMENT a EMPTY>".toList) :=
      stopsAt_of_free [']', ']'] (by decide : '>' ∉ [']', ']']) (by decide)
    simpa [drafts, EndsFirst] using hsection
  have hread := (read_subset areWritten_drafts).1 hends
  exact ⟨areWritten_drafts, hends, hmarks,
    ((read_subset areWritten_drafts).2 hmarks).mp hread, hread⟩

/-- A section that is left out, inside another one that is not. -/
def nestedSections : List SubsetItem :=
  [.included "INCLUDE".toList [.ignored "IGNORE".toList ['x']]]

theorem read_nested_sections : AreWritten nestedSections ∧
    charsOfAll nestedSections = "<![INCLUDE[<![IGNORE[x]]>]]>".toList ∧
    Dtd.read (charsOfAll nestedSections) = .error (.unexpectedContent 25) := by
  refine ⟨⟨⟨?_, ⟨?_, ?_⟩, trivial⟩, trivial⟩, by decide, rfl⟩
  · exact mem_mul_of_cut 0 nil_mem_blanks (mem_mul_of_cut 7 (.inl rfl) nil_mem_blanks)
  · exact mem_mul_of_cut 0 nil_mem_blanks (mem_mul_of_cut 6 (.inl rfl) nil_mem_blanks)
  · exact mem_ignoredText (by decide) (by decide)

end Dtd

end XmlAdvisor
