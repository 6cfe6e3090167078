import XmlAdvisor.Grammar.Declaration
import XmlAdvisor.Proofs.DeclarationReading

/-!
# A definition is read as it is written

The pieces of a definition are read back one after another, and assembling them keeps what is
declared first.

* `readPieces_of_mem_spellings` — the pieces of a written definition are those that it is written
  with.
* `Dtd.declaredBy` — the definition that declarations stand for: each element as it is declared
  first, with the attributes of all its lists, each as it is declared first.
* `Assembled` — what assembling has made of the pieces so far; `Assembled.add` — one more piece.
* **`Dtd.read_of_mem_spellings`** — a written definition is read as what its declarations stand for.
-/

namespace XmlAdvisor

open scoped Computability

/-! ## The pieces -/

namespace DtdPiece

/-- Whether a piece declares an element or attributes. -/
def isDeclaration : DtdPiece → Bool
  | .element _ _ | .attributes _ _ => true
  | .comment _ | .passing | .breaking => false

/-- The element that a piece declares. -/
def declaredElement? : DtdPiece → Option (String × ContentSpec)
  | .element n content => some (n, content)
  | _ => none

/-- The attributes that a piece declares for an element. -/
def attributesOf (element : String) : DtdPiece → List DtdAttribute
  | .attributes n as => if n = element then as else []
  | _ => []

lemma isDeclaration_of_mem {p : DtdPiece} {w : List Char} (hw : w ∈ p.spellings) :
    p.isDeclaration = true := by
  cases p with
  | element n content => rfl
  | attributes n as => rfl
  | _ => exact absurd hw (Language.notMem_zero w)

lemma exists_cons_of_mem {p : DtdPiece} {w : List Char} (hw : w ∈ p.spellings) :
    ∃ cs, w = '<' :: cs := by
  cases p with
  | element n content =>
      obtain ⟨u, rfl, v, -, rfl⟩ := Language.mem_mul.mp hw
      exact ⟨_, rfl⟩
  | attributes n as =>
      obtain ⟨u, rfl, v, -, rfl⟩ := Language.mem_mul.mp hw
      exact ⟨_, rfl⟩
  | _ => exact absurd hw (Language.notMem_zero w)

end DtdPiece

lemma isDeclaration_of_mem_spellings {pieces : List DtdPiece} {w : List Char}
    (hw : w ∈ definitionSpellings pieces) : ∀ p ∈ pieces, p.isDeclaration = true := by
  induction pieces generalizing w with
  | nil => exact nofun
  | cons p more ih =>
      obtain ⟨b, -, x, hx, rfl⟩ := Language.mem_mul.mp hw
      obtain ⟨u, hu, v, hv, rfl⟩ := Language.mem_mul.mp hx
      intro q hq
      rcases List.mem_cons.mp hq with rfl | hq
      · exact DtdPiece.isDeclaration_of_mem hu
      · exact ih hv q hq

/-- No definition has more pieces than characters. -/
lemma lasts_definition (pieces : List DtdPiece) :
    Lasts pieces.length (definitionSpellings pieces) := by
  induction pieces with
  | nil => exact lasts_zero
  | cons p more ih =>
      have hp : Lasts 1 p.spellings := by
        intro w hw
        obtain ⟨cs, rfl⟩ := DtdPiece.exists_cons_of_mem hw
        exact Nat.succ_pos cs.length
      rw [definitionSpellings, List.length_cons, Nat.add_comm]
      exact (hp.mul ih).behind

lemma takeWhile_blanks {b rest : List Char} (hb : b ∈ Spelling.blanks)
    (hrest : Ahead (isXmlSpace · = false) rest) : (b ++ rest).takeWhile isXmlSpace = b := by
  rw [List.takeWhile_append_of_pos hb]
  cases rest with
  | nil => exact List.append_nil b
  | cons c rest => rw [List.takeWhile_cons_of_neg (by simp [hrest c rfl]), List.append_nil]

/-- The pieces of a written definition are those that it is written with. -/
lemma readPieces_of_mem_spellings {pieces : List DtdPiece} {w : List Char}
    (hw : w ∈ definitionSpellings pieces) (offset : Nat) {count : Nat} (h : pieces.length ≤ count) :
    readPieces count offset w = .ok pieces := by
  induction pieces generalizing w offset count with
  | nil =>
      cases count with
      | zero => rfl
      | succ count =>
          have hblank : (w ++ []).takeWhile isXmlSpace = w :=
            takeWhile_blanks hw fun c hc => absurd hc (by simp)
          rw [List.append_nil] at hblank
          simp [readPieces, hblank]
  | cons p more ih =>
      cases count with
      | zero => cases h
      | succ count =>
          obtain ⟨b, hb, x, hx, rfl⟩ := Language.mem_mul.mp hw
          obtain ⟨u, hu, v, hv, rfl⟩ := Language.mem_mul.mp hx
          obtain ⟨cs, rfl⟩ := DtdPiece.exists_cons_of_mem hu
          have hpiece : readPiece ('<' :: (cs ++ v)) = .ok (p, v) := readPiece_of_mem_spellings hu v
          have hblank : (b ++ '<' :: (cs ++ v)).takeWhile isXmlSpace = b :=
            takeWhile_blanks hb fun c hc => by
              rw [← Option.mem_some_iff.mp hc]
              rfl
          have hmore (offset : Nat) : readPieces count offset v = .ok more :=
            ih hv offset (Nat.le_of_succ_le_succ h)
          rw [readPieces, List.cons_append, hblank]
          dsimp only
          rw [List.drop_left]
          simp only [hpiece, hmore]
          rfl

/-! ## The definition -/

/-- The definition that declarations stand for.  The first declaration of an element is the one that
counts, and so is the first one of each of its attributes. -/
def Dtd.declaredBy (pieces : List DtdPiece) : Dtd :=
  ⟨(distinctBy Prod.fst (pieces.filterMap DtdPiece.declaredElement?)).map fun (n, content) =>
    ⟨n, content, distinctBy DtdAttribute.name (pieces.flatMap (DtdPiece.attributesOf n)), none⟩⟩

namespace DtdAssembly

lemma addNew_distinctBy (known more : List DtdAttribute) :
    addNew (distinctBy DtdAttribute.name known) more =
      distinctBy DtdAttribute.name (known ++ more) := by
  rw [distinctBy, distinctBy, List.foldl_append]
  rfl

lemma lookup_addAttributes (element n : String) (more : List DtdAttribute)
    (lists : List (String × List DtdAttribute)) : (addAttributes element more lists).lookup n =
      if n = element then some (addNew ((lists.lookup element).getD []) more)
      else lists.lookup n := by
  induction lists with
  | nil => by_cases hn : n = element <;> simp [addAttributes, List.lookup_cons, hn, beq_eq_decide]
  | cons list lists ih =>
      obtain ⟨other, known⟩ := list
      rw [addAttributes]
      by_cases hother : other = element
      · subst hother
        by_cases hn : n = other <;> simp [List.lookup_cons, hn, beq_eq_decide]
      · by_cases hn : n = other
        · simp [hn, hother]
        · simp [hother, hn, List.lookup_cons, ih, Ne.symm hother, beq_eq_decide]

/-- A piece adds the attributes that it declares for an element. -/
lemma lookup_add (s : DtdAssembly) (p : DtdPiece) (n : String) :
    ((s.add p).attributes.lookup n).getD [] =
      addNew ((s.attributes.lookup n).getD []) (p.attributesOf n) := by
  cases p with
  | attributes element as =>
      show ((addAttributes element as s.attributes).lookup n).getD [] = _
      rw [lookup_addAttributes, DtdPiece.attributesOf]
      by_cases hn : n = element
      · rw [if_pos hn, if_pos hn.symm, hn]
        rfl
      · rw [if_neg hn, if_neg (Ne.symm hn)]
        rfl
  | _ => rfl

/-- What has been assembled from pieces. -/
structure Assembled (pieces : List DtdPiece) (s : DtdAssembly) : Prop where
  elements : s.elements = (distinctBy Prod.fst (pieces.filterMap DtdPiece.declaredElement?)).map
    fun (n, content) => ⟨n, content, [], none⟩
  attributes : ∀ n, (s.attributes.lookup n).getD [] =
    distinctBy DtdAttribute.name (pieces.flatMap (DtdPiece.attributesOf n))
  comment : s.comment = none

lemma distinctBy_concat {α κ : Type} [DecidableEq κ] (key : α → κ) (items : List α) (a : α) :
    distinctBy key (items ++ [a]) =
      if (distinctBy key items).any (key · = key a) then distinctBy key items
      else distinctBy key items ++ [a] := by
  rw [distinctBy, List.foldl_concat]
  rfl

lemma Assembled.add {pieces : List DtdPiece} {s : DtdAssembly} (h : Assembled pieces s)
    {p : DtdPiece} (hp : p.isDeclaration = true) : Assembled (pieces ++ [p]) (s.add p) := by
  have hattributes (n : String) : ((s.add p).attributes.lookup n).getD [] =
      distinctBy DtdAttribute.name ((pieces ++ [p]).flatMap (DtdPiece.attributesOf n)) := by
    rw [lookup_add, h.attributes, addNew_distinctBy, List.flatMap_append, List.flatMap_singleton]
  cases p with
  | element n content =>
      refine ⟨?_, hattributes, rfl⟩
      have hknown : s.elements.any (·.name = n) =
          (distinctBy Prod.fst (pieces.filterMap DtdPiece.declaredElement?)).any (·.1 = n) := by
        rw [h.elements, List.any_map]
        rfl
      simp only [DtdAssembly.add, hknown, List.filterMap_append, DtdPiece.declaredElement?,
        List.filterMap_cons, List.filterMap_nil, distinctBy_concat]
      split_ifs
      · exact h.elements
      · rw [List.map_append, h.elements, h.comment]
        rfl
  | attributes element as =>
      refine ⟨?_, hattributes, rfl⟩
      have hnone : [DtdPiece.attributes element as].filterMap DtdPiece.declaredElement? = [] := rfl
      rw [List.filterMap_append, hnone, List.append_nil]
      exact h.elements
  | comment text => cases hp
  | passing => cases hp
  | breaking => cases hp

lemma assembled_foldl {pieces : List DtdPiece} (h : ∀ p ∈ pieces, p.isDeclaration = true) :
    Assembled pieces (pieces.foldl DtdAssembly.add ⟨[], [], none⟩) := by
  induction pieces using List.reverseRecOn with
  | nil => exact ⟨rfl, fun _ => rfl, rfl⟩
  | append_singleton pieces p ih =>
      rw [List.foldl_concat]
      exact (ih fun q hq => h q (List.mem_append_left _ hq)).add (h p (by simp))

end DtdAssembly

lemma Dtd.ofPieces_eq {pieces : List DtdPiece} (h : ∀ p ∈ pieces, p.isDeclaration = true) :
    Dtd.ofPieces pieces = Dtd.declaredBy pieces := by
  have hs := DtdAssembly.assembled_foldl h
  rw [Dtd.ofPieces, Dtd.declaredBy]
  dsimp only
  rw [hs.elements, List.map_map]
  congr 1
  refine List.map_congr_left fun e _ => ?_
  simp only [Function.comp, hs.attributes]

/-- **A definition is read as it is written.**  Reading any text of some declarations gives the
elements in the order in which they are declared first, each with this content, and with the
attributes of all its lists, of which the first declaration counts. -/
theorem Dtd.read_of_mem_spellings {pieces : List DtdPiece} {text : List Char}
    (h : text ∈ definitionSpellings pieces) : Dtd.read text = .ok (Dtd.declaredBy pieces) := by
  have hpieces : dtdPieces text = .ok pieces :=
    readPieces_of_mem_spellings h 0 (lasts_definition pieces text h)
  rw [Dtd.read, hpieces, ← Dtd.ofPieces_eq (isDeclaration_of_mem_spellings h)]
  rfl

/-! ## A written definition -/

/-- A text is cut where the first factor ends. -/
lemma mem_mul_of_cut (n : Nat) {l k : Language Char} {w : List Char} (hl : w.take n ∈ l)
    (hk : w.drop n ∈ k) : w ∈ l * k :=
  Language.mem_mul.mpr ⟨w.take n, hl, w.drop n, hk, List.take_append_drop n w⟩

lemma nil_mem_blanks : [] ∈ Spelling.blanks :=
  fun _ hc => absurd hc List.not_mem_nil

lemma space_mem_someBlanks : [' '] ∈ Spelling.someBlanks :=
  ⟨List.cons_ne_nil _ _, fun _ hc => List.mem_singleton.mp hc ▸ rfl⟩

lemma mem_nameToken {n : String} (h : Spelling.isNameToken n.toList = true) :
    n.toList ∈ Spelling.nameToken n :=
  ⟨rfl, h⟩

lemma mem_fullName {n : String} (h : Spelling.isNameToken n.toList = true)
    (hstart : n.toList.head?.all isNameStart = true) : n.toList ∈ Spelling.fullName n :=
  ⟨⟨rfl, h⟩, hstart⟩

/-- A kind of a list, and a list of items and lists with perhaps a head. -/
def listDeclarations : List DtdPiece :=
  [.attributes "list" [⟨"kind", .enumeration ["a", "b"], .value "a"⟩],
    .element "list" (.children (.sequence
      [.name "head" .optional, .choice [.name "item" .once, .name "list" .once] .oneOrMore] .once))]

def listText : List Char :=
  "<!ATTLIST list kind (a|b) 'a'><!ELEMENT list (head?,(item|list)+)>".toList

lemma kind_spelled : " kind (a|b) 'a'".toList ∈
    DtdAttribute.spellings ⟨"kind", .enumeration ["a", "b"], .value "a"⟩ := by
  refine mem_mul_of_cut 1 space_mem_someBlanks
    (mem_mul_of_cut 4 (mem_fullName (by decide) (by decide)) ?_)
  refine mem_mul_of_cut 1 space_mem_someBlanks (mem_mul_of_cut 5 ?_ ?_)
  · refine mem_mul_of_cut 1 rfl (mem_mul_of_cut 0 nil_mem_blanks ?_)
    refine mem_mul_of_cut 1 (mem_nameToken (by decide)) (mem_mul_of_cut 0 nil_mem_blanks ?_)
    refine mem_mul_of_cut 1 rfl (mem_mul_of_cut 0 nil_mem_blanks ?_)
    exact mem_mul_of_cut 1 (mem_nameToken (by decide)) (mem_mul_of_cut 0 nil_mem_blanks rfl)
  · exact mem_mul_of_cut 1 space_mem_someBlanks ⟨'\'', .inr rfl, by decide, rfl⟩

lemma items_spelled : "(item|list)+".toList ∈
    Particle.spellings (.choice [.name "item" .once, .name "list" .once] .oneOrMore) := by
  refine mem_mul_of_cut 1 rfl (mem_mul_of_cut 10 (mem_mul_of_cut 4 ?_ ?_) rfl)
  · exact mem_mul_of_cut 0 nil_mem_blanks
      (mem_mul_of_cut 4 (mem_fullName (by decide) (by decide)) rfl)
  · refine mem_mul_of_cut 0 nil_mem_blanks (mem_mul_of_cut 1 rfl (mem_mul_of_cut 4 ?_ ?_))
    · exact mem_mul_of_cut 0 nil_mem_blanks
        (mem_mul_of_cut 4 (mem_fullName (by decide) (by decide)) rfl)
    · exact mem_mul_of_cut 0 nil_mem_blanks rfl

lemma listText_spelled : listText ∈ definitionSpellings listDeclarations := by
  refine mem_mul_of_cut 0 nil_mem_blanks (mem_mul_of_cut 30 ?_ (mem_mul_of_cut 0 nil_mem_blanks ?_))
  · refine mem_mul_of_cut 9 rfl (mem_mul_of_cut 1 space_mem_someBlanks ?_)
    refine mem_mul_of_cut 4 (mem_fullName (by decide) (by decide))
      (mem_mul_of_cut 15 kind_spelled ?_)
    exact mem_mul_of_cut 0 nil_mem_blanks rfl
  · refine mem_mul_of_cut 36 (mem_mul_of_cut 9 rfl ?_) nil_mem_blanks
    refine mem_mul_of_cut 1 space_mem_someBlanks
      (mem_mul_of_cut 4 (mem_fullName (by decide) (by decide)) ?_)
    refine mem_mul_of_cut 1 space_mem_someBlanks
      (mem_mul_of_cut 20 ?_ (mem_mul_of_cut 0 nil_mem_blanks rfl))
    refine mem_mul_of_cut 1 rfl (mem_mul_of_cut 19 (mem_mul_of_cut 5 ?_ ?_) rfl)
    · exact mem_mul_of_cut 0 nil_mem_blanks
        (mem_mul_of_cut 4 (mem_fullName (by decide) (by decide)) rfl)
    · refine mem_mul_of_cut 0 nil_mem_blanks (mem_mul_of_cut 1 rfl (mem_mul_of_cut 12 ?_ ?_))
      · exact mem_mul_of_cut 0 nil_mem_blanks items_spelled
      · exact mem_mul_of_cut 0 nil_mem_blanks rfl

theorem Dtd.read_listText : listText ∈ definitionSpellings listDeclarations ∧
    Dtd.read listText = .ok (Dtd.declaredBy listDeclarations) :=
  ⟨listText_spelled, Dtd.read_of_mem_spellings listText_spelled⟩

end XmlAdvisor
