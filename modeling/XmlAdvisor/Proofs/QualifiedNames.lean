import XmlAdvisor.Proofs.TokenSpans
import XmlAdvisor.Tree.Build
import XmlAdvisor.Tree.Lookup
import Mathlib.Data.List.TakeWhile

/-!
# Names that are written with a colon

A name is kept in its parts, and an attribute under its name as it is written.  Both say the same as
long as no part has a colon of its own, which is so for all names that are read.

* `QualifiedName.Plain` — whether no part of a name is empty or has a colon.
* `plain_of_mem_scanAll` — the names of all attributes are plain.
* **`text_eq_declaringName_iff`** — the written name of an attribute is that of a declaration just
  when its parts make it.
-/

namespace XmlAdvisor

/-! ## The first colon -/

/-- A text is cut at its first colon. -/
lemma splitAtColon_append {q : List Char} (h : ':' ∉ q) (l : List Char) :
    splitAtColon (q ++ ':' :: l) = some (q, l) := by
  have hq : ∀ c ∈ q, (c != ':') = true := by
    intro c hc
    rw [bne_iff_ne]
    rintro rfl
    exact h hc
  simp [splitAtColon, List.takeWhile_append_of_pos hq, List.dropWhile_append_of_pos hq]

/-- What stands before the first colon has none. -/
lemma notMem_of_splitAtColon {cs q l : List Char} (h : splitAtColon cs = some (q, l)) :
    ':' ∉ q := by
  rw [splitAtColon] at h
  split at h
  · cases h
  · cases h
    intro hmem
    have hne := List.mem_takeWhile_imp hmem
    exact absurd hne (by decide)

/-! ## Plain names -/

namespace QualifiedName

/-- Whether no part of a name is empty or has a colon. -/
structure Plain (n : QualifiedName) : Prop where
  localName : n.localName ≠ "" ∧ ':' ∉ n.localName.toList
  qualifier : ∀ q ∈ n.qualifier, q ≠ "" ∧ ':' ∉ q.toList

/-- A name with a qualifier, as it is written. -/
lemma toList_text_of_qualifier {n : QualifiedName} {q : String} (h : n.qualifier = some q) :
    n.text.toList = q.toList ++ ':' :: n.localName.toList := by
  rw [text, h]
  simp

lemma text_of_none {n : QualifiedName} (h : n.qualifier = none) : n.text = n.localName := by
  rw [text, h]

end QualifiedName

lemma toList_declaringName (q : String) :
    (Tree.declaringName (some q)).toList = "xmlns".toList ++ ':' :: q.toList := by
  simp [Tree.declaringName]

/-- The written name of an attribute is that of a declaration just when its parts make it. -/
theorem text_eq_declaringName_iff {n : QualifiedName} (h : n.Plain) (value : String)
    (q : Option String) :
    n.text = Tree.declaringName q ↔ (bindingOf n value).map Binding.qualifier = some q := by
  have hkeyword : ':' ∉ "xmlns".toList := by decide
  have hnone : Tree.declaringName none = "xmlns" := rfl
  rw [bindingOf]
  cases hqualifier : n.qualifier with
  | none =>
      rw [QualifiedName.text_of_none hqualifier]
      cases q with
      | none =>
          rw [hnone]
          dsimp only
          split_ifs with hname <;> simp [hname]
      | some q =>
          have hne : n.localName ≠ Tree.declaringName (some q) := by
            intro heq
            apply h.localName.2
            rw [heq, toList_declaringName]
            simp
          dsimp only
          split_ifs <;> simp [hne]
  | some r =>
      have hr := (h.qualifier r hqualifier).2
      cases q with
      | none =>
          have hne : n.text ≠ "xmlns" := by
            intro heq
            apply hkeyword
            rw [← heq, QualifiedName.toList_text_of_qualifier hqualifier]
            simp
          dsimp only
          rw [hnone]
          split_ifs <;> simp [hne]
      | some q =>
          have hsplit : n.text = Tree.declaringName (some q) ↔ r = "xmlns" ∧ n.localName = q := by
            rw [← String.toList_inj, QualifiedName.toList_text_of_qualifier hqualifier,
              toList_declaringName]
            constructor
            · intro heq
              have hcut := congrArg splitAtColon heq
              rw [splitAtColon_append hr, splitAtColon_append hkeyword] at hcut
              simp only [Option.some.injEq, Prod.mk.injEq] at hcut
              exact ⟨String.toList_inj.mp hcut.1, String.toList_inj.mp hcut.2⟩
            · rintro ⟨rfl, rfl⟩
              rfl
          rw [hsplit]
          dsimp only
          split_ifs with hxmlns <;> simp [hxmlns]

/-! ## Names that are read -/

/-- What is read as a name: its parts, neither of which has a colon. -/
lemma Scan.exists_parts {c c' : Cursor} {n : QualifiedName} (h : qualifiedName c = .ok (n, c')) :
    ∃ q l : List Char, c' = c.advance (c.rest.takeWhile isNameChar).length ∧
      n = ⟨qualifierOf (String.ofList q), String.ofList l⟩ ∧ l ≠ [] ∧ ':' ∉ q ∧ ':' ∉ l ∧
      (q = [] ∧ c.rest.takeWhile isNameChar = l ∨ c.rest.takeWhile isNameChar = q ++ ':' :: l) ∧
      partBegins q = true ∧ partBegins l = true := by
  obtain ⟨cs, c₁, hrun, h⟩ := Scan.bind_ok h
  cases hrun
  have hparts {q l : List Char} (hq : ':' ∉ q)
      (hwritten : q = [] ∧ c.rest.takeWhile isNameChar = l ∨
        c.rest.takeWhile isNameChar = q ++ ':' :: l)
      (hread : (if (l.contains ':' || l.isEmpty || !Scan.partBegins q || !Scan.partBegins l) = true
        then Scan.stop .badName
        else return QualifiedName.mk (qualifierOf (String.ofList q)) (String.ofList l))
          (c.advance (c.rest.takeWhile isNameChar).length) = .ok (n, c')) :
      ∃ q l : List Char, c' = c.advance (c.rest.takeWhile isNameChar).length ∧
        n = ⟨qualifierOf (String.ofList q), String.ofList l⟩ ∧ l ≠ [] ∧ ':' ∉ q ∧ ':' ∉ l ∧
        (q = [] ∧ c.rest.takeWhile isNameChar = l ∨
          c.rest.takeWhile isNameChar = q ++ ':' :: l) ∧
        partBegins q = true ∧ partBegins l = true := by
    split_ifs at hread with hbad
    · cases hread
    · cases hread
      simp only [Bool.or_eq_true, not_or, List.contains_iff_mem, List.isEmpty_iff,
        Bool.not_eq_true', Bool.not_eq_false] at hbad
      exact ⟨q, l, rfl, rfl, hbad.1.1.2, hq, hbad.1.1.1, hwritten, hbad.1.2, hbad.2⟩
  cases hsplit : splitAtColon (c.rest.takeWhile isNameChar) with
  | none =>
      rw [hsplit] at h
      exact hparts (by simp) (.inl ⟨rfl, rfl⟩) h
  | some parts =>
      rw [hsplit] at h
      exact hparts (notMem_of_splitAtColon hsplit)
        (.inr (Scan.append_of_splitAtColon hsplit).symm) h

/-- A name that is read is plain. -/
lemma Scan.qualifiedName_plain {c c' : Cursor} {n : QualifiedName}
    (h : qualifiedName c = .ok (n, c')) : n.Plain := by
  obtain ⟨q, l, -, rfl, hne, hq, hl, -⟩ := exists_parts h
  refine ⟨⟨by simpa [← String.toList_inj] using hne, by simpa using hl⟩, fun p hp => ?_⟩
  simp only [qualifierOf] at hp
  split_ifs at hp with hempty
  · cases hp
  · cases hp
    exact ⟨fun heq => hempty (by rw [heq]; rfl), by simpa using hq⟩

/-- The cursor is moved on by the length of the name at least. -/
lemma Scan.add_length_le_of_qualifiedName {c c' : Cursor} {n : QualifiedName}
    (h : qualifiedName c = .ok (n, c')) : c.offset + n.text.length ≤ c'.offset := by
  obtain ⟨q, l, rfl, rfl, -, -, -, hwritten, -⟩ := exists_parts h
  show c.offset + _ ≤ c.offset + (c.rest.takeWhile isNameChar).length
  apply Nat.add_le_add_left
  rcases hwritten with ⟨rfl, heq⟩ | heq
  · rw [heq, QualifiedName.text]
    simp [qualifierOf]
  · rw [heq]
    exact text_length_le q l

/-- Whether the name of an attribute is plain. -/
def Token.NamedPlainly : Token → Prop
  | .attribute name _ _ _ _ => name.Plain
  | _ => True

/-- Only inside a start tag are there attributes. -/
lemma Token.namedPlainly_of_next? {t : Token} {phase phase' : Phase} (hphase : phase ≠ .tag)
    (h : t.next? phase = some phase') : t.NamedPlainly := by
  cases t with
  | «attribute» name value nameSpan valueSpan span =>
      cases phase with
      | head => cases h
      | tag => exact absurd rfl hphase
      | body => cases h
  | _ => trivial

namespace Scan

/-- The name of an attribute is read before the rest of it. -/
lemma tagAttribute_plain {c c' : Cursor} {t : Option Token} (h : tagAttribute c = .ok (t, c')) :
    ∀ x ∈ t, x.NamedPlainly := by
  obtain ⟨key, c₁, c₂, mark, c₃, cs, c₄, hkey, -, -, -, -, rfl⟩ := tagAttribute_ok h
  rintro x ⟨⟩
  exact qualifiedName_plain hkey

lemma tagPart_plain {c c' : Cursor} {t : Option Token} (h : tagPart c = .ok (t, c')) :
    ∀ x ∈ t, x.NamedPlainly := by
  cases tagPart_ok h with
  | selfClose _ _ htoken =>
      subst htoken
      rintro x ⟨⟩
      trivial
  | close _ _ htoken =>
      subst htoken
      rintro x ⟨⟩
      trivial
  | «attribute» _ _ _ hread => exact tagAttribute_plain hread

end Scan

/-- **The names of all attributes are plain.** -/
theorem plain_of_mem_scanAll (text : List Char) : ∀ t ∈ (scanAll text).1, t.NamedPlainly := by
  intro t ht
  obtain ⟨c, c', -, -, hread⟩ := read_cases_of_mem_scanAll text t ht
  rcases hread with ⟨phase, phase', hphase, -, hnext⟩ | ⟨-, hnext⟩ | hpart
  · exact Token.namedPlainly_of_next? hphase hnext
  · exact Token.namedPlainly_of_next? (by decide) hnext
  · exact Scan.tagPart_plain hpart t rfl

end XmlAdvisor
