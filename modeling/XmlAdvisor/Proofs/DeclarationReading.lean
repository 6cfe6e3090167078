import XmlAdvisor.Proofs.DefinitionReading

/-!
# Declarations are read as they are written

Each step of reading a declaration undoes the production it belongs to.

* `reads_particle`, `reads_group`, `reads_members` — groups within groups.
* `reads_contentSpec`, `reads_elementDeclaration` — elements and their content.
* `reads_attributeType`, `reads_defaultDeclaration`, `reads_attributeList` — attributes.
* **`readPiece_of_mem_spellings`** — declarations are read as they are written.

**Depth.**  Groups are read within a number of steps.  `Particle.weight` is the number that is
enough, and no group has more weight than characters.
-/

namespace XmlAdvisor

open scoped Computability

namespace DtdScan

variable {α β : Type} {l k : Language Char} {a : α} {b : β} {P Q R : Char → Prop}

/-! ## Groups -/

/-- Whether a character can stand behind a part of a group. -/
def Parts (c : Char) : Prop :=
  endsName c = true ∧ c ≠ '?' ∧ c ≠ '*' ∧ c ≠ '+'
  deriving Decidable

/-- Whether a text stands between the members of a group, as the given character. -/
def IsSeparator (sep : String) (c : Char) : Prop :=
  (sep = "," ∧ c = ',') ∨ (sep = "|" ∧ c = '|')

lemma reads_separator {sep : String} {c : Char} (h : IsSeparator sep c) :
    Reads separator (Spelling.text sep) c P := by
  rw [separator]
  rcases h with ⟨rfl, rfl⟩ | ⟨rfl, rfl⟩
  · exact Reads.ended
  · exact Reads.passed (c := ',') rfl (Spelling.begins_text rfl (by decide))
      ((reads_need "|").last rfl)

lemma begins_separator {sep : String} {c : Char} (h : IsSeparator sep c) (hP : P ',' ∧ P '|') :
    Begins (Spelling.text sep) Q P := by
  rcases h with ⟨rfl, rfl⟩ | ⟨rfl, rfl⟩
  · exact Spelling.begins_text rfl hP.1
  · exact Spelling.begins_text rfl hP.2

lemma reads_occurrence (o : Occurrence) : Reads occurrence o.spelling o Parts := by
  rw [occurrence]
  cases o with
  | once =>
      exact Reads.passed (c := '?') rfl (begins_one fun _ hc => hc.2.1)
        (Reads.passed (c := '*') rfl (begins_one fun _ hc => hc.2.2.1)
          (Reads.passed (c := '+') rfl (begins_one fun _ hc => hc.2.2.2) (Reads.pure _)))
  | optional => exact Reads.ended
  | zeroOrMore =>
      exact Reads.passed (c := '?') rfl (Spelling.begins_text rfl (by decide)) Reads.ended
  | oneOrMore =>
      exact Reads.passed (c := '?') rfl (Spelling.begins_text rfl (by decide))
        (Reads.passed (c := '*') rfl (Spelling.begins_text rfl (by decide)) Reads.ended)

lemma begins_occurrence (o : Occurrence) : Begins o.spelling Parts (endsName · = true) := by
  cases o with
  | once => exact begins_one fun _ hc => hc.1
  | _ => exact Spelling.begins_text rfl rfl

lemma begins_particle (h : ∀ c, isNameStart c = true → isBlank c = false → P c) (hP : P '(')
    (p : Particle) : Begins p.spellings Q P := by
  cases p with
  | name n o =>
      rw [Particle.spellings]
      exact (Spelling.begins_fullName h).first
  | sequence members o =>
      rw [Particle.spellings]
      exact (Spelling.begins_text rfl hP).first
  | choice members o =>
      rw [Particle.spellings]
      split_ifs
      · exact (Spelling.begins_text rfl hP).first
      · exact begins_zero

/-- Names and groups begin with no white space. -/
lemma particle_unspaced (p : Particle) : Begins p.spellings Q (isXmlSpace · = false) :=
  begins_particle (fun _ _ hblank => isXmlSpace_of_not_blank hblank) rfl p

lemma begins_moreMembers {sep : String} {c : Char} (hsep : IsSeparator sep c)
    (more : List Particle) :
    Begins (Particle.moreSpellings sep more) Q Parts := by
  cases more with
  | nil =>
      rw [Particle.moreSpellings]
      exact (Spelling.begins_blanks (by decide) fun _ hc => hc).mul
        (Spelling.begins_text rfl (by decide))
  | cons p more =>
      rw [Particle.moreSpellings]
      exact (Spelling.begins_blanks (by decide) fun _ hc => hc).mul
        (begins_separator hsep (by decide)).first

end DtdScan

/-! ## Depth of groups -/

namespace Particle

mutual
/-- The number of steps that is enough to read a particle. -/
def weight : Particle → Nat
  | .name _ _ => 1
  | .sequence members _ => weightOfAll members + 1
  | .choice members _ => weightOfAll members + 1

/-- The number of steps that is enough to read members of a group. -/
def weightOfAll : List Particle → Nat
  | [] => 1
  | p :: more => max (weight p) (weightOfAll more) + 1
end

lemma weight_pos (p : Particle) : 1 ≤ p.weight := by
  cases p <;> simp [weight]

lemma weightOfAll_pos (members : List Particle) : 1 ≤ weightOfAll members := by
  cases members <;> simp [weightOfAll]

mutual
/-- No particle has more weight than characters. -/
lemma lasts_spellings : ∀ p : Particle, Lasts p.weight p.spellings
  | .name n o => by
      rw [weight, spellings]
      exact Lasts.ahead fun w hw => List.length_pos_iff.mpr (Spelling.ne_nil_of_isNameToken hw.1.2)
  | .sequence members o => by
      rw [weight, spellings, Nat.add_comm]
      exact (lasts_text (by decide)).mul (lasts_groupSpellings "," (by decide) members).ahead
  | .choice members o => by
      rw [weight, spellings, Nat.add_comm]
      split_ifs
      · exact (lasts_text (by decide)).mul (lasts_groupSpellings "|" (by decide) members).ahead
      · exact fun _ hw => absurd hw (Language.notMem_zero _)

lemma lasts_groupSpellings (sep : String) (hsep : 1 ≤ sep.toList.length) :
    ∀ members : List Particle, Lasts (weightOfAll members) (groupSpellings sep members)
  | [] => by
      rw [groupSpellings]
      exact fun _ hw => absurd hw (Language.notMem_zero _)
  | p :: more => by
      have hp := p.weight_pos
      have hmore := weightOfAll_pos more
      rw [weightOfAll, groupSpellings]
      exact ((lasts_spellings p).behind.mul (lasts_moreSpellings sep hsep more)).mono (by omega)

lemma lasts_moreSpellings (sep : String) (hsep : 1 ≤ sep.toList.length) :
    ∀ more : List Particle, Lasts (weightOfAll more) (moreSpellings sep more)
  | [] => by
      rw [weightOfAll, moreSpellings]
      exact (lasts_text (by decide)).behind
  | p :: more => by
      rw [weightOfAll, moreSpellings]
      exact ((lasts_text hsep).mul
        ((lasts_spellings p).behind.mul (lasts_moreSpellings sep hsep more))).behind.mono (by omega)
end

end Particle

namespace DtdScan

variable {α β : Type} {l k : Language Char} {a : α} {b : β} {P Q R : Char → Prop}

/-- The separator that is known after the members of a group. -/
def separatorAfter (before : Option Char) (c : Char) : List Particle → Option Char
  | [] => before
  | _ :: _ => some c

lemma separatorAfter_some (c : Char) (more : List Particle) :
    separatorAfter (some c) c more = some c := by
  cases more <;> rfl

/-- The group that members make with the separator between them. -/
def groupOf (separator : Option Char) (members : List Particle) (o : Occurrence) : Particle :=
  if separator = some '|' then .choice members o else .sequence members o

lemma separatorAfter_ne_bar (more : List Particle) : separatorAfter none ',' more ≠ some '|' := by
  cases more with
  | nil => exact nofun
  | cons p more => exact fun h => absurd (Option.some.inj h) (by decide)

/-- Behind the first of two members there is a separator. -/
lemma separatorAfter_of_two {c : Char} {members : List Particle} (h : 2 ≤ members.length) :
    separatorAfter none c members.tail = some c := by
  match members, h with
  | _ :: _ :: _, _ => rfl

mutual
/-- A particle is read as it is written. -/
lemma reads_particle : ∀ (p : Particle) {steps : Nat}, p.weight ≤ steps →
    Reads (particle steps) (Spelling.blanks * p.spellings) p Parts
  | .name n o, 0, h => absurd h (by simp [Particle.weight])
  | .name n o, steps + 1, h => by
      rw [particle]
      refine Reads.blanks (particle_unspaced _) ?_
      rw [Particle.spellings]
      refine Reads.passed (c := '(') rfl (Spelling.begins_fullName fun c hc _ =>
        ne_of_isNameChar (isNameChar_start hc) (by decide)).first ?_
      exact (reads_fullName n).bind (begins_occurrence o) ((reads_occurrence o).last rfl)
  | .sequence members o, 0, h => absurd h (by simp [Particle.weight])
  | .sequence members o, steps + 1, h => by
      rw [particle]
      refine Reads.blanks (particle_unspaced _) ?_
      rw [Particle.spellings]
      rw [Particle.weight] at h
      have hgroup := reads_group (o := o) (.inl ⟨rfl, rfl⟩) members (Nat.le_of_succ_le_succ h)
      rw [groupOf, if_neg (separatorAfter_ne_bar members.tail)] at hgroup
      exact Reads.taken hgroup
  | .choice members o, 0, h => absurd h (by simp [Particle.weight])
  | .choice members o, steps + 1, h => by
      rw [particle]
      refine Reads.blanks (particle_unspaced _) ?_
      rw [Particle.spellings]
      rw [Particle.weight] at h
      split_ifs with htwo
      · have hgroup := reads_group (o := o) (.inr ⟨rfl, rfl⟩) members (Nat.le_of_succ_le_succ h)
        rw [groupOf, if_pos (separatorAfter_of_two htwo)] at hgroup
        exact Reads.taken hgroup
      · exact reads_zero

/-- A group is read as it is written. -/
lemma reads_group {sep : String} {c : Char} {o : Occurrence} (hsep : IsSeparator sep c) :
    ∀ (members : List Particle) {steps : Nat}, Particle.weightOfAll members ≤ steps →
    Reads (group steps) (Particle.groupSpellings sep members * o.spelling)
      (groupOf (separatorAfter none c members.tail) members o) Parts
  | [], steps, h => by
      rw [Particle.groupSpellings, zero_mul]
      exact reads_zero
  | p :: more, 0, h => absurd h (by simp [Particle.weightOfAll])
  | p :: more, steps + 1, h => by
      rw [Particle.weightOfAll] at h
      rw [group, Particle.groupSpellings, mul_assoc]
      refine (reads_particle p (by omega)).bind (begins_moreMembers hsep more).first ?_
      refine (reads_members hsep none (Or.inl rfl) more (by omega)).bind begins_true ?_
      rw [List.tail_cons, groupOf]
      dsimp only
      split_ifs
      · exact (reads_occurrence o).last rfl
      · exact (reads_occurrence o).last rfl

/-- The members of a group after the first are read as they are written. -/
lemma reads_members {sep : String} {c : Char} (hsep : IsSeparator sep c) (before : Option Char)
    (hbefore : before = none ∨ before = some c) :
    ∀ (more : List Particle) {steps : Nat}, Particle.weightOfAll more ≤ steps →
    Reads (members steps before) (Particle.moreSpellings sep more)
      (separatorAfter before c more, more) (fun _ => True)
  | [], 0, h => absurd h (by simp [Particle.weightOfAll])
  | [], steps + 1, h => by
      rw [members, Particle.moreSpellings]
      exact Reads.blanks (Spelling.begins_text rfl rfl) Reads.ended
  | p :: more, 0, h => absurd h (by simp [Particle.weightOfAll])
  | p :: more, steps + 1, h => by
      rw [Particle.weightOfAll] at h
      rw [members, Particle.moreSpellings]
      have hsame : ¬ before.any (· != c) = true := by
        rcases hbefore with rfl | rfl <;> simp
      refine Reads.blanks (begins_separator hsep (by decide)).first ?_
      refine Reads.passed (c := ')') rfl (begins_separator hsep (by decide)).first ?_
      refine (reads_separator hsep).bind begins_true ?_
      dsimp only
      rw [if_neg hsame]
      refine (reads_particle p (by omega)).bind (begins_moreMembers hsep more) ?_
      refine (reads_members hsep (some c) (Or.inr rfl) more (by omega)).last ?_
      rw [separatorAfter_some]
      rfl
end

/-! ## The content of an element -/

/-- A text is read within a number of steps if it has no fewer characters. -/
lemma Reads.within {m : Nat → DtdScan α} {n : Nat} (hl : Lasts n l)
    (h : ∀ steps, n + 1 ≤ steps → Reads (m steps) l a P) : Reads (enough >>= m) l a P := by
  intro w hw rest hrest
  have hlong := hl w hw
  refine h (2 * (w ++ rest).length + 2) ?_ w hw rest hrest
  rw [List.length_append]
  omega

lemma lasts_afterBars (ending : Language Char) (names : List String) :
    Lasts names.length (Spelling.afterBars ending names) := by
  induction names with
  | nil => exact lasts_zero
  | cons n more ih =>
      rw [Spelling.afterBars, List.length_cons, Nat.add_comm]
      exact ((lasts_text (by decide)).mul ih.behind.behind).behind

lemma begins_afterBars {ending : Language Char} (names : List String) :
    Begins (Spelling.afterBars ending names) Q (endsName · = true) := by
  cases names with
  | nil =>
      exact (Spelling.begins_blanks (by decide) fun _ hc => hc).mul
        (Begins.first (Spelling.begins_text (c := ')') rfl rfl))
  | cons n more =>
      exact (Spelling.begins_blanks (by decide) fun _ hc => hc).mul
        (Begins.first (Spelling.begins_text (c := '|') rfl rfl))

lemma reads_mixedRest {ending : Language Char}
    (hending : Reads (take "*" >>= fun _ => pure ([] : List String)) ending [] (· ≠ '*'))
    (names : List String) {count : Nat} (h : names.length + 1 ≤ count) :
    Reads (mixedRest count) (Spelling.afterBars ending names) names (· ≠ '*') := by
  induction names generalizing count with
  | nil =>
      obtain ⟨count, rfl⟩ := Nat.exists_eq_succ_of_ne_zero (by omega : count ≠ 0)
      rw [mixedRest, Spelling.afterBars]
      exact Reads.blanks (Begins.first (Spelling.begins_text (c := ')') rfl rfl))
        (Reads.taken hending)
  | cons n more ih =>
      obtain ⟨count, rfl⟩ := Nat.exists_eq_succ_of_ne_zero (by omega : count ≠ 0)
      rw [mixedRest, Spelling.afterBars]
      refine Reads.blanks (Begins.first (Spelling.begins_text (c := '|') rfl rfl)) ?_
      refine Reads.passed (c := ')') rfl
        (Begins.first (Spelling.begins_text (c := '|') rfl (by decide))) ?_
      refine (reads_need "|").bind begins_true (Reads.blanks ?_ ?_)
      · exact (Spelling.begins_fullName fun _ _ hblank => isXmlSpace_of_not_blank hblank).first
      · exact (reads_fullName n).bind (begins_afterBars more)
          ((ih (by rw [List.length_cons] at h; omega)).last rfl)

/-- White space may be missing. -/
lemma mem_blanks_mul (w : List Char) (hw : w ∈ l) : w ∈ Spelling.blanks * l :=
  Language.mem_mul.mpr ⟨[], fun _ hc => absurd hc List.not_mem_nil, w, hw, rfl⟩

lemma IsSeparator.length_pos {sep : String} {c : Char} (h : IsSeparator sep c) :
    1 ≤ sep.toList.length := by
  rcases h with ⟨rfl, -⟩ | ⟨rfl, -⟩ <;> decide

/-- A group of the content of an element is read as it is written. -/
lemma reads_groupContent {sep : String} {c : Char} {o : Occurrence} (hsep : IsSeparator sep c)
    (members : List Particle) :
    Reads contentSpec (Spelling.text "(" * (Particle.groupSpellings sep members * o.spelling))
      (.children (groupOf (separatorAfter none c members.tail) members o)) Parts := by
  cases members with
  | nil =>
      rw [Particle.groupSpellings, zero_mul, mul_zero]
      exact reads_zero
  | cons p more =>
      have hgroup {steps : Nat} (h : Particle.weightOfAll (p :: more) + 1 ≤ steps) :=
        reads_group (o := o) hsep (p :: more) (Nat.le_of_succ_le h)
      have hlasts := (Particle.lasts_spellings p).mul
        ((Particle.lasts_moreSpellings sep hsep.length_pos more).ahead (k := o.spelling))
      have hweight : Particle.weightOfAll (p :: more) ≤ p.weight + Particle.weightOfAll more := by
        have hp := p.weight_pos
        have hmore := Particle.weightOfAll_pos more
        rw [Particle.weightOfAll]
        omega
      rw [Particle.groupSpellings, mul_assoc, mul_assoc] at hgroup ⊢
      rw [contentSpec]
      refine Reads.passed (c := 'E') rfl (Begins.first (Spelling.begins_text rfl (by decide))) ?_
      refine Reads.passed (c := 'A') rfl (Begins.first (Spelling.begins_text rfl (by decide))) ?_
      refine (reads_need "(").bind begins_true (Reads.blanks (particle_unspaced p).first ?_)
      refine Reads.passed (c := '#') rfl (Begins.first (begins_particle (fun d hd _ =>
        ne_of_isNameChar (isNameChar_start hd) (by decide)) (by decide) p)) ?_
      exact Reads.within (hlasts.mono hweight) fun steps hsteps =>
        ((hgroup hsteps).mono mem_blanks_mul).last rfl

lemma reads_contentSpec (content : ContentSpec) :
    Reads contentSpec content.spellings content Parts := by
  match content with
  | .empty =>
      rw [contentSpec]
      exact Reads.ended
  | .any =>
      rw [contentSpec]
      exact Reads.passed (c := 'E') rfl (Spelling.begins_text rfl (by decide)) Reads.ended
  | .mixed names =>
      have hstar : Reads (take "*" >>= fun _ => pure ([] : List String))
          (if names.isEmpty then Spelling.text "*" + 1 else Spelling.text "*") [] (· ≠ '*') := by
        have hwritten := (reads_take (P := (· ≠ '*')) "*").last
          (f := fun _ => pure ([] : List String)) rfl
        split_ifs
        · exact hwritten.add ((reads_take_one rfl).last rfl)
        · exact hwritten
      rw [contentSpec, ContentSpec.spellings]
      refine Reads.passed (c := 'E') rfl (Begins.first (Spelling.begins_text rfl (by decide))) ?_
      refine Reads.passed (c := 'A') rfl (Begins.first (Spelling.begins_text rfl (by decide))) ?_
      refine (reads_need "(").bind begins_true
        (Reads.blanks (Begins.first (Spelling.begins_text (c := '#') rfl rfl)) (Reads.taken ?_))
      exact Reads.within (lasts_afterBars _ names) fun steps hsteps =>
        ((reads_mixedRest hstar names hsteps).behind fun _ hc => hc.2.2.1).last rfl
  | .children (.name n o) => exact reads_zero
  | .children (.sequence members o) =>
      have hgroup := reads_groupContent (o := o) (.inl ⟨rfl, rfl⟩) members
      rw [groupOf, if_neg (separatorAfter_ne_bar members.tail)] at hgroup
      rw [ContentSpec.spellings, Particle.spellings]
      · exact hgroup
      · exact nofun
  | .children (.choice members o) =>
      rw [ContentSpec.spellings, Particle.spellings]
      · split_ifs with htwo
        · have hgroup := reads_groupContent (o := o) (.inr ⟨rfl, rfl⟩) members
          rw [groupOf, if_pos (separatorAfter_of_two htwo)] at hgroup
          exact hgroup
        · exact reads_zero
      · exact nofun

/-- How declarations of elements begin. -/
lemma begins_contentSpec (h : P '(' ∧ P 'E' ∧ P 'A') (content : ContentSpec) :
    Begins content.spellings Q P := by
  obtain ⟨hopen, hE, hA⟩ := h
  match content with
  | .empty => exact Spelling.begins_text rfl hE
  | .any => exact Spelling.begins_text rfl hA
  | .mixed names =>
      rw [ContentSpec.spellings]
      exact Begins.first (Spelling.begins_text rfl hopen)
  | .children (.name n o) => exact begins_zero
  | .children (.sequence members o) =>
      rw [ContentSpec.spellings, Particle.spellings]
      · exact Begins.first (Spelling.begins_text rfl hopen)
      · exact nofun
  | .children (.choice members o) =>
      rw [ContentSpec.spellings, Particle.spellings]
      · split_ifs
        · exact Begins.first (Spelling.begins_text rfl hopen)
        · exact begins_zero
      · exact nofun

lemma fullName_unspaced (n : String) : Begins (Spelling.fullName n) Q (isXmlSpace · = false) :=
  Spelling.begins_fullName fun _ _ hblank => isXmlSpace_of_not_blank hblank

lemma someBlanks_endsName : Begins Spelling.someBlanks Q (endsName · = true) :=
  Spelling.begins_someBlanks (by decide)

lemma reads_elementDeclaration (n : String) (content : ContentSpec) :
    Reads elementDeclaration
      (Spelling.someBlanks * (Spelling.fullName n * (Spelling.someBlanks *
        (content.spellings * (Spelling.blanks * Spelling.text ">"))))) (.element n content)
      (fun _ => True) := by
  rw [elementDeclaration]
  refine reads_someBlanks.bind (fullName_unspaced n).first ?_
  refine (reads_fullName n).bind someBlanks_endsName.first ?_
  refine reads_someBlanks.bind (Begins.first (begins_contentSpec (by decide) content)) ?_
  refine (reads_contentSpec content).bind
    ((Spelling.begins_blanks (by decide) fun _ hc => hc).mul
      (Spelling.begins_text (c := '>') rfl (by decide))) ?_
  exact Reads.blanks (Spelling.begins_text (c := '>') rfl rfl) ((reads_need ">").last rfl)

/-! ## Attributes -/

lemma reads_alternatives {item : String → Language Char}
    (hreads : ∀ n, Reads name (item n) n (endsName · = true))
    (hbegins : ∀ n, Begins (item n) (fun _ => True) (isXmlSpace · = false)) :
    ∀ (names : List String) {count : Nat}, names.length ≤ count →
    Reads (alternatives count) (Spelling.barred item names) names (fun _ => True)
  | [], _, _ => reads_zero
  | [n], 0, h => absurd h (by simp)
  | [n], count + 1, h => by
      rw [alternatives, Spelling.barred]
      refine Reads.blanks (hbegins n).first ((hreads n).bind ?_ (Reads.blanks ?_ Reads.ended))
      · exact (Spelling.begins_blanks (by decide) fun _ hc => hc).mul
          (Spelling.begins_text (c := ')') rfl rfl)
      · exact Spelling.begins_text (c := ')') rfl rfl
  | n :: m :: more, 0, h => absurd h (by simp)
  | n :: m :: more, count + 1, h => by
      have hmore := reads_alternatives hreads hbegins (m :: more) (Nat.le_of_succ_le_succ h)
      rw [alternatives, Spelling.barred]
      · refine Reads.blanks (hbegins n).first ((hreads n).bind ?_ (Reads.blanks ?_ ?_))
        · exact (Spelling.begins_blanks (by decide) fun _ hc => hc).mul
            (Begins.first (Spelling.begins_text (c := '|') rfl rfl))
        · exact Begins.first (Spelling.begins_text (c := '|') rfl rfl)
        · refine Reads.passed (c := ')') rfl
            (Begins.first (Spelling.begins_text (c := '|') rfl (by decide))) ?_
          exact (reads_need "|").bind begins_true (hmore.last rfl)
      · exact nofun

lemma lasts_barred (item : String → Language Char) :
    ∀ names : List String, Lasts names.length (Spelling.barred item names)
  | [] => lasts_zero
  | [n] => by
      rw [Spelling.barred]
      exact Lasts.behind (Lasts.behind
        (Lasts.behind (lasts_text (show 1 ≤ ")".toList.length by decide))))
  | n :: m :: more => by
      have hmore := lasts_barred item (m :: more)
      rw [Spelling.barred, List.length_cons, Nat.add_comm]
      · exact Lasts.behind (Lasts.behind (Lasts.behind ((lasts_text (by decide)).mul hmore)))
      · exact nofun

/-- Names in parentheses are read as they are written. -/
lemma reads_barred {item : String → Language Char}
    (hreads : ∀ n, Reads name (item n) n (endsName · = true))
    (hbegins : ∀ n, Begins (item n) (fun _ => True) (isXmlSpace · = false))
    (names : List String) {f : List String → AttributeType} :
    Reads (enough >>= fun count => alternatives count >>= fun ns => pure (f ns))
      (Spelling.barred item names) (f names) (fun _ => True) :=
  Reads.within (lasts_barred item names) fun _ h =>
    (reads_alternatives hreads hbegins names (Nat.le_of_succ_le h)).last rfl

/-- A keyword is read as a name. -/
lemma reads_keyword (s : String) (h : Spelling.isNameToken s.toList = true) :
    Reads name (Spelling.text s) s (endsName · = true) :=
  (reads_nameToken s).mono fun w hw => by
    obtain rfl : w = s.toList := hw
    exact ⟨rfl, h⟩

lemma reads_attributeType (type : AttributeType) :
    Reads attributeType type.spellings type (endsName · = true) := by
  rw [attributeType]
  cases type with
  | enumeration tokens =>
      have hlist := reads_barred reads_nameToken
        (fun n => Spelling.begins_nameToken fun _ _ hblank =>
        isXmlSpace_of_not_blank hblank) tokens (f := .enumeration)
      exact Reads.taken (hlist.behind fun _ _ => trivial)
  | notations names =>
      have hlist := reads_barred reads_fullName fullName_unspaced names (f := .notations)
      refine Reads.passed (c := '(') rfl (Begins.first (Spelling.begins_text rfl (by decide))) ?_
      refine (reads_keyword "NOTATION" (by decide)).bind someBlanks_endsName.first ?_
      refine Reads.someBlanks (Begins.first (Spelling.begins_text (c := '(') rfl rfl)) ?_
      exact (reads_need "(").bind begins_true (hlist.behind fun _ _ => trivial)
  | _ =>
      refine Reads.passed (c := '(') rfl (Spelling.begins_text rfl (by decide)) ?_
      exact (reads_keyword _ (by decide)).last rfl

lemma begins_attributeType (hP : P '(' ∧ P 'C' ∧ P 'I' ∧ P 'E' ∧ P 'N') (type : AttributeType) :
    Begins type.spellings Q P := by
  obtain ⟨hopen, hC, hI, hE, hN⟩ := hP
  cases type with
  | cdata => exact Spelling.begins_text rfl hC
  | id => exact Spelling.begins_text rfl hI
  | idref => exact Spelling.begins_text rfl hI
  | idrefs => exact Spelling.begins_text rfl hI
  | entity => exact Spelling.begins_text rfl hE
  | entities => exact Spelling.begins_text rfl hE
  | nmtoken => exact Spelling.begins_text rfl hN
  | nmtokens => exact Spelling.begins_text rfl hN
  | notations names => exact Begins.first (Spelling.begins_text rfl hN)
  | enumeration tokens => exact Begins.first (Spelling.begins_text rfl hopen)

lemma reads_defaultDeclaration (d : DefaultDecl) :
    Reads defaultDeclaration d.spellings d (fun _ => True) := by
  rw [defaultDeclaration]
  cases d with
  | required => exact Reads.ended
  | implied =>
      rw [DefaultDecl.spellings, ← mul_one (Spelling.text "#IMPLIED")]
      exact Reads.passedText (fun _ => rfl) (Reads.taken (Reads.pure _))
  | fixed v =>
      refine Reads.passedText (fun _ => rfl) (Reads.passedText (fun _ => rfl) (Reads.taken ?_))
      exact Reads.someBlanks (Spelling.begins_quotedValue (by decide) v)
        ((reads_quotedText v).last rfl)
  | value v =>
      refine Reads.passed (c := '#') rfl (Spelling.begins_quotedValue (by decide) v) ?_
      refine Reads.passed (c := '#') rfl (Spelling.begins_quotedValue (by decide) v) ?_
      refine Reads.passed (c := '#') rfl (Spelling.begins_quotedValue (by decide) v) ?_
      exact (reads_quotedText v).last rfl

lemma begins_defaultDeclaration (hP : P '#' ∧ P '"' ∧ P '\'') (d : DefaultDecl) :
    Begins d.spellings Q P := by
  cases d with
  | required => exact Spelling.begins_text rfl hP.1
  | implied => exact Spelling.begins_text rfl hP.1
  | fixed v => exact Begins.first (Spelling.begins_text rfl hP.1)
  | value v => exact Spelling.begins_quotedValue hP.2 v

lemma lasts_attributes (as : List DtdAttribute) : Lasts as.length (attributesSpellings as) := by
  induction as with
  | nil => exact lasts_zero
  | cons a more ih =>
      rw [attributesSpellings, DtdAttribute.spellings, List.length_cons, Nat.add_comm]
      exact Lasts.mul (Lasts.ahead fun w hw => List.length_pos_iff.mpr hw.1) ih

lemma reads_attributeList (as : List DtdAttribute) {count : Nat} (h : as.length + 1 ≤ count) :
    Reads (attributeList count) (attributesSpellings as) as (fun _ => True) := by
  induction as generalizing count with
  | nil =>
      obtain ⟨count, rfl⟩ := Nat.exists_eq_succ_of_ne_zero (by omega : count ≠ 0)
      rw [attributeList, attributesSpellings]
      exact Reads.blanks (Spelling.begins_text (c := '>') rfl rfl) Reads.ended
  | cons a more ih =>
      obtain ⟨count, rfl⟩ := Nat.exists_eq_succ_of_ne_zero (by omega : count ≠ 0)
      have hmore := ih (Nat.le_of_succ_le_succ h)
      rw [attributeList, attributesSpellings]
      simp only [DtdAttribute.spellings, mul_assoc]
      refine Reads.someBlanks (fullName_unspaced a.name).first ?_
      refine Reads.passed (c := '>') rfl (Begins.first (Spelling.begins_fullName fun c hc _ =>
        ne_of_isNameChar (isNameChar_start hc) (by decide))) ?_
      refine (reads_fullName a.name).bind someBlanks_endsName.first ?_
      refine reads_someBlanks.bind (Begins.first (begins_attributeType (by decide) a.type)) ?_
      refine (reads_attributeType a.type).bind someBlanks_endsName.first ?_
      refine reads_someBlanks.bind
        (Begins.first (begins_defaultDeclaration (by decide) a.default)) ?_
      exact (reads_defaultDeclaration a.default).bind begins_true (hmore.last rfl)

lemma reads_attributesDeclaration (n : String) (as : List DtdAttribute) :
    Reads attributesDeclaration
      (Spelling.someBlanks * (Spelling.fullName n * attributesSpellings as)) (.attributes n as)
      (fun _ => True) := by
  rw [attributesDeclaration]
  refine reads_someBlanks.bind (fullName_unspaced n).first ?_
  refine (reads_fullName n).bind ?_ ?_
  · cases as with
    | nil =>
        exact (Spelling.begins_blanks (by decide) fun _ hc => hc).mul
          (Spelling.begins_text (c := '>') rfl rfl)
    | cons a more => exact Begins.first (Begins.first someBlanks_endsName)
  · exact Reads.within (lasts_attributes as) fun _ h => (reads_attributeList as h).last rfl

end DtdScan

/-! ## Pieces -/

/-- **Declarations are read as they are written**, whatever comes behind them. -/
lemma readPiece_of_mem_spellings {p : DtdPiece} {w : List Char} (hw : w ∈ p.spellings)
    (rest : List Char) : readPiece (w ++ rest) = .ok (p, rest) := by
  cases p with
  | element n content =>
      obtain ⟨u, rfl, v, hv, rfl⟩ := Language.mem_mul.mp hw
      have hread : DtdScan.elementDeclaration (v ++ rest) = some (.element n content, rest) :=
        DtdScan.reads_elementDeclaration n content v hv rest fun _ _ => trivial
      have hlength : "<!ELEMENT".length = 9 := by decide
      rw [List.append_assoc]
      simp [readPiece, List.isPrefixOf, hlength, hread]
  | attributes n as =>
      obtain ⟨u, rfl, v, hv, rfl⟩ := Language.mem_mul.mp hw
      have hread : DtdScan.attributesDeclaration (v ++ rest) = some (.attributes n as, rest) :=
        DtdScan.reads_attributesDeclaration n as v hv rest fun _ _ => trivial
      have hlength : "<!ATTLIST".length = 9 := by decide
      rw [List.append_assoc]
      simp [readPiece, List.isPrefixOf, hlength, hread]
  | _ => exact absurd hw (Language.notMem_zero w)

end XmlAdvisor
