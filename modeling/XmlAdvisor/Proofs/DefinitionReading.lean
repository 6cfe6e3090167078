import XmlAdvisor.Proofs.DefinitionSpelling

/-!
# Reading what is written by a grammar

A step of reading is described by the texts that it reads: from a text of a language and whatever
comes behind, it reads the value that is written there and leaves what comes behind.

* `Ahead`, `Begins` — which characters can come next.
* `Lasts` — how many characters there are at least.
* `DtdScan.Reads` — what it means for a step to read the texts of a language as a value.
* `Reads.bind`, `Reads.taken`, `Reads.passed`, … — one rule for each way to put steps together.
* `reads_someBlanks`, `reads_fullName`, `reads_quotedText` — the smallest parts.

**What comes behind** matters where a step does not see its own end: a name, white space and a part
without a sign for its occurrence go on until a character that cannot belong to them.
-/

namespace XmlAdvisor

open scoped Computability

/-! ## What can come next -/

/-- Whether a text is at its end or begins with a character of a kind. -/
def Ahead (P : Char → Prop) (cs : List Char) : Prop :=
  ∀ c ∈ cs.head?, P c

/-- Whether the texts of a language begin with characters of a kind, if what comes behind does as
well. -/
def Begins (l : Language Char) (behind P : Char → Prop) : Prop :=
  ∀ w ∈ l, ∀ rest, Ahead behind rest → Ahead P (w ++ rest)

section Begins

variable {l k : Language Char} {P Q R : Char → Prop}

lemma begins_of_head (h : ∀ w ∈ l, ∃ c more, w = c :: more ∧ P c) : Begins l Q P := by
  intro w hw rest _ c hc
  obtain ⟨first, more, rfl, hfirst⟩ := h w hw
  rw [List.cons_append, List.head?_cons, Option.mem_some_iff] at hc
  exact hc ▸ hfirst

lemma begins_true : Begins l Q (fun _ => True) :=
  fun _ _ _ _ _ _ => trivial

lemma begins_one (h : ∀ c, Q c → P c) : Begins 1 Q P := by
  rintro w hw rest hrest c hc
  rw [(Language.mem_one w).mp hw] at hc
  exact h c (hrest c hc)

lemma Begins.mul (hl : Begins l R P) (hk : Begins k Q R) : Begins (l * k) Q P := by
  intro w hw rest hrest
  obtain ⟨u, hu, v, hv, rfl⟩ := Language.mem_mul.mp hw
  rw [List.append_assoc]
  exact hl u hu (v ++ rest) (hk v hv rest hrest)

/-- What has a first character of its own does not depend on what comes behind. -/
lemma Begins.first (hl : Begins l (fun _ => True) P) : Begins (l * k) Q P :=
  hl.mul begins_true

lemma begins_zero : Begins 0 Q P :=
  fun _ hw => absurd hw (Language.notMem_zero _)

end Begins

/-! ## First characters of productions -/

namespace Spelling

variable {P Q : Char → Prop} {n s : String}

lemma of_isXmlSpace {c : Char} (h : isXmlSpace c = true)
    (hP : P ' ' ∧ P '\t' ∧ P '\r' ∧ P '\n') : P c := by
  simp only [isXmlSpace, Bool.or_eq_true, beq_iff_eq] at h
  obtain ⟨h1, h2, h3, h4⟩ := hP
  rcases h with ((rfl | rfl) | rfl) | rfl <;> assumption

lemma begins_text {c : Char} (hs : s.toList.head? = some c) (hc : P c) : Begins (text s) Q P := by
  refine begins_of_head fun w hw => ?_
  obtain ⟨more, hmore⟩ := List.head?_eq_some_iff.mp hs
  exact ⟨c, more, hw.trans hmore, hc⟩

lemma begins_blanks (hP : P ' ' ∧ P '\t' ∧ P '\r' ∧ P '\n') (hQ : ∀ c, Q c → P c) :
    Begins blanks Q P := by
  intro w hw rest hrest c hc
  cases w with
  | nil => exact hQ c (hrest c hc)
  | cons first more =>
      rw [List.cons_append, List.head?_cons, Option.mem_some_iff] at hc
      exact of_isXmlSpace (hw c (by simp [hc])) hP

lemma begins_someBlanks (hP : P ' ' ∧ P '\t' ∧ P '\r' ∧ P '\n') : Begins someBlanks Q P := by
  refine begins_of_head fun w ⟨hne, hw⟩ => ?_
  obtain ⟨c, more, rfl⟩ := List.exists_cons_of_ne_nil hne
  exact ⟨c, more, rfl, of_isXmlSpace (hw c (by simp)) hP⟩

lemma ne_nil_of_isNameToken {cs : List Char} (h : isNameToken cs = true) : cs ≠ [] := by
  rintro rfl
  cases h

lemma of_isNameToken {cs : List Char} (h : isNameToken cs = true) {c : Char} (hc : c ∈ cs) :
    isNameChar c = true ∧ isBlank c = false := by
  rw [isNameToken, Bool.and_eq_true] at h
  have hboth := List.all_eq_true.mp h.2 c hc
  rwa [Bool.and_eq_true, Bool.not_eq_true'] at hboth

lemma begins_nameToken (h : ∀ c, isNameChar c = true → isBlank c = false → P c) :
    Begins (nameToken n) Q P := by
  refine begins_of_head fun w ⟨_, hw⟩ => ?_
  obtain ⟨c, more, rfl⟩ := List.exists_cons_of_ne_nil (ne_nil_of_isNameToken hw)
  have hc := of_isNameToken hw (List.mem_cons_self ..)
  exact ⟨c, more, rfl, h c hc.1 hc.2⟩

lemma begins_fullName (h : ∀ c, isNameStart c = true → isBlank c = false → P c) :
    Begins (fullName n) Q P := by
  refine begins_of_head fun w ⟨⟨_, hw⟩, hstart⟩ => ?_
  obtain ⟨c, more, rfl⟩ := List.exists_cons_of_ne_nil (ne_nil_of_isNameToken hw)
  exact ⟨c, more, rfl, h c hstart (of_isNameToken hw (List.mem_cons_self ..)).2⟩

lemma begins_quotedValue (h : P '"' ∧ P '\'') (v : String) : Begins (quotedValue v) Q P := by
  refine begins_of_head fun w hw => ?_
  obtain ⟨mark, rfl | rfl, -, rfl⟩ := hw
  · exact ⟨_, _, rfl, h.1⟩
  · exact ⟨_, _, rfl, h.2⟩

end Spelling

/-- A character that a name cannot hold is none that a name has. -/
lemma ne_of_isNameChar {c d : Char} (hc : isNameChar c = true) (hd : isNameChar d = false) :
    c ≠ d := by
  rintro rfl
  rw [hc] at hd
  cases hd

lemma isNameChar_start {c : Char} (h : isNameStart c = true) : isNameChar c = true := by
  rw [isNameChar, h, Bool.true_or]

lemma isXmlSpace_of_not_blank {c : Char} (h : isBlank c = false) : isXmlSpace c = false := by
  rw [← Bool.not_eq_true]
  intro hspace
  rw [isBlank_of_isXmlSpace hspace] at h
  cases h

/-! ## Lengths -/

/-- Whether the texts of a language have at least so many characters. -/
def Lasts (n : Nat) (l : Language Char) : Prop :=
  ∀ w ∈ l, n ≤ w.length

section Lasts

variable {l k : Language Char} {m n : Nat}

lemma Lasts.mono (h : Lasts n l) (hle : m ≤ n) : Lasts m l :=
  fun w hw => Nat.le_trans hle (h w hw)

lemma lasts_zero : Lasts 0 l :=
  fun _ _ => Nat.zero_le _

lemma Lasts.mul (hl : Lasts m l) (hk : Lasts n k) : Lasts (m + n) (l * k) := by
  intro w hw
  obtain ⟨u, hu, v, hv, rfl⟩ := Language.mem_mul.mp hw
  rw [List.length_append]
  exact Nat.add_le_add (hl u hu) (hk v hv)

/-- A product lasts as long as its second factor. -/
lemma Lasts.behind (hk : Lasts n k) : Lasts n (l * k) := by
  have h := (lasts_zero (l := l)).mul hk
  rwa [Nat.zero_add] at h

/-- A product lasts as long as its first factor. -/
lemma Lasts.ahead (hl : Lasts n l) : Lasts n (l * k) :=
  hl.mul lasts_zero

lemma lasts_text {s : String} (h : n ≤ s.toList.length) : Lasts n (Spelling.text s) := by
  rintro w rfl
  exact h

end Lasts

/-! ## Reading -/

namespace DtdScan

variable {α β : Type} {l k : Language Char} {a : α} {b : β} {P Q R : Char → Prop}

/-- Whether a step reads the texts of a language as a value, if what comes behind begins as
given. -/
def Reads (m : DtdScan α) (l : Language Char) (a : α) (behind : Char → Prop) : Prop :=
  ∀ w ∈ l, ∀ rest, Ahead behind rest → m.run (w ++ rest) = some (a, rest)

lemma Reads.behind {m : DtdScan α} (h : Reads m l a Q) (hP : ∀ c, P c → Q c) : Reads m l a P :=
  fun w hw rest hrest => h w hw rest fun c hc => hP c (hrest c hc)

lemma Reads.mono {m : DtdScan α} (h : Reads m l a P) (hle : ∀ w ∈ k, w ∈ l) : Reads m k a P :=
  fun w hw => h w (hle w hw)

lemma Reads.add {m : DtdScan α} (hl : Reads m l a P) (hk : Reads m k a P) : Reads m (l + k) a P :=
  fun w hw => hw.elim (hl w) (hk w)

lemma reads_zero {m : DtdScan α} : Reads m 0 a P :=
  fun _ hw => absurd hw (Language.notMem_zero _)

lemma Reads.bind {m : DtdScan α} {f : α → DtdScan β} (hm : Reads m l a R) (hk : Begins k P R)
    (hf : Reads (f a) k b P) : Reads (m >>= f) (l * k) b P := by
  intro w hw rest hrest
  obtain ⟨u, hu, v, hv, rfl⟩ := Language.mem_mul.mp hw
  rw [StateT.run_bind, List.append_assoc, hm u hu (v ++ rest) (hk v hv rest hrest)]
  exact hf v hv rest hrest

lemma Reads.pure (a : α) : Reads (pure a) 1 a P := by
  rintro w hw rest -
  rw [(Language.mem_one w).mp hw]
  rfl

/-- After the last step, what was read is put together. -/
lemma Reads.last {m : DtdScan α} {f : α → DtdScan β} (h : Reads m l a P) (hf : f a = Pure.pure b) :
    Reads (m >>= f) l b P := by
  have hlast := h.bind (f := f) (begins_one fun _ hc => hc) (hf ▸ Reads.pure b)
  rwa [mul_one] at hlast

/-! ### Fixed texts -/

lemma take_run (s : String) (cs : List Char) : (take s).run cs =
    if s.toList.isPrefixOf cs then some (true, cs.drop s.length) else some (false, cs) := by
  show (ite _ _ _ : DtdScan Bool).run cs = _
  split_ifs <;> rfl

lemma run_take (s : String) (rest : List Char) :
    (take s).run (s.toList ++ rest) = some (true, rest) := by
  have hlength : s.length = s.toList.length := s.length_toList.symm
  simp [take_run, hlength]

lemma run_take_of_head {s : String} {c : Char} {cs : List Char} (hs : s.toList.head? = some c)
    (hcs : Ahead (· ≠ c) cs) : (take s).run cs = some (false, cs) := by
  obtain ⟨more, hmore⟩ := List.head?_eq_some_iff.mp hs
  have hno : s.toList.isPrefixOf cs = false := by
    rw [hmore]
    cases cs with
    | nil => rfl
    | cons d cs => simp [List.isPrefixOf, (hcs d rfl).symm]
  rw [take_run, hno]
  rfl

/-- A fixed text that comes next is taken. -/
lemma Reads.taken {s : String} {yes no : DtdScan α} (h : Reads yes l a P) :
    Reads (take s >>= fun t => if t = true then yes else no) (Spelling.text s * l) a P := by
  intro w hw rest hrest
  obtain ⟨u, rfl, v, hv, rfl⟩ := Language.mem_mul.mp hw
  rw [StateT.run_bind, List.append_assoc, run_take]
  exact h v hv rest hrest

/-- Nothing is read behind a fixed text that ends a part. -/
lemma Reads.ended {s : String} {no : DtdScan α} :
    Reads (take s >>= fun t => if t = true then Pure.pure a else no) (Spelling.text s) a P := by
  rw [← mul_one (Spelling.text s)]
  exact Reads.taken (Reads.pure a)

/-- A fixed text is passed over if something else comes next. -/
lemma Reads.passed {s : String} {c : Char} {yes no : DtdScan α} (hs : s.toList.head? = some c)
    (hl : Begins l P (· ≠ c)) (h : Reads no l a P) :
    Reads (take s >>= fun t => if t = true then yes else no) l a P := by
  intro w hw rest hrest
  rw [StateT.run_bind, run_take_of_head hs (hl w hw rest hrest)]
  exact h w hw rest hrest

/-- A fixed text is passed over if another one comes next. -/
lemma Reads.passedText {s t : String} {yes no : DtdScan α}
    (hother : ∀ rest, s.toList.isPrefixOf (t.toList ++ rest) = false)
    (h : Reads no (Spelling.text t * l) a P) :
    Reads (take s >>= fun t => if t = true then yes else no) (Spelling.text t * l) a P := by
  intro w hw rest hrest
  have hrun := h w hw rest hrest
  obtain ⟨u, rfl, v, hv, rfl⟩ := Language.mem_mul.mp hw
  rw [List.append_assoc] at hrun ⊢
  rw [StateT.run_bind, take_run, hother]
  exact hrun

lemma reads_take (s : String) : Reads (take s) (Spelling.text s) true P := by
  rintro w rfl rest -
  exact run_take s rest

lemma reads_take_one {s : String} {c : Char} (hs : s.toList.head? = some c) :
    Reads (take s) 1 false (· ≠ c) := by
  intro w hw rest hrest
  rw [(Language.mem_one w).mp hw, List.nil_append]
  exact run_take_of_head hs hrest

lemma reads_need (s : String) : Reads (need s) (Spelling.text s) () P := by
  rintro w rfl rest -
  rw [need, StateT.run_bind, run_take]
  rfl

/-! ### White space, names and values -/

lemma run_blanks {w rest : List Char} (hw : w ∈ Spelling.blanks)
    (hrest : Ahead (isXmlSpace · = false) rest) :
    blanks.run (w ++ rest) = some (decide (w ≠ []), rest) := by
  have hdrop : (w ++ rest).dropWhile isXmlSpace = rest := by
    rw [List.dropWhile_append_of_pos hw]
    cases rest with
    | nil => rfl
    | cons c rest => exact List.dropWhile_cons_of_neg (by simp [hrest c rfl])
  have hlength : decide (rest.length < (w ++ rest).length) = decide (w ≠ []) := by
    simp [List.length_pos_iff]
  show some (decide _, _) = _
  rw [hdrop, hlength]

/-- White space that may be missing is passed over. -/
lemma Reads.blanks {m : DtdScan α} (hl : Begins l P (isXmlSpace · = false)) (h : Reads m l a P) :
    Reads (blanks >>= fun _ => m) (Spelling.blanks * l) a P := by
  intro w hw rest hrest
  obtain ⟨u, hu, v, hv, rfl⟩ := Language.mem_mul.mp hw
  rw [StateT.run_bind, List.append_assoc, run_blanks hu (hl v hv rest hrest)]
  exact h v hv rest hrest

/-- So is white space that must be there. -/
lemma Reads.someBlanks {m : DtdScan α} (hl : Begins l P (isXmlSpace · = false))
    (h : Reads m l a P) :
    Reads (DtdScan.blanks >>= fun _ => m) (Spelling.someBlanks * l) a P := by
  refine (Reads.blanks hl h).mono fun w hw => ?_
  obtain ⟨u, hu, v, hv, rfl⟩ := Language.mem_mul.mp hw
  exact Language.mem_mul.mpr ⟨u, hu.2, v, hv, rfl⟩

lemma reads_someBlanks :
    Reads someBlanks Spelling.someBlanks () (isXmlSpace · = false) := by
  rintro w ⟨hne, hw⟩ rest hrest
  rw [someBlanks, StateT.run_bind, run_blanks hw hrest, decide_eq_true hne]
  rfl

lemma endsName_of_isNameChar {c : Char} (hc : isNameChar c = true) (hblank : isBlank c = false) :
    endsName c = false := by
  have hmarks : "()|,?*+>\"'%;[]".toList.all (!isNameChar ·) = true := by decide
  rw [endsName, hblank, Bool.false_or, ← Bool.not_eq_true, List.contains_iff_mem]
  intro hmem
  have hno := List.all_eq_true.mp hmarks c hmem
  rw [hc] at hno
  cases hno

lemma name_run {cs : List Char} (h : cs.takeWhile (!endsName ·) ≠ []) :
    name.run cs = some (String.ofList (cs.takeWhile (!endsName ·)),
      cs.drop (cs.takeWhile (!endsName ·)).length) := by
  have hempty : (cs.takeWhile (!endsName ·)).isEmpty = false := List.isEmpty_eq_false_iff.mpr h
  change (if (cs.takeWhile (!endsName ·)).isEmpty = true then _ else _ : DtdScan String).run cs = _
  rw [hempty]
  rfl

lemma reads_nameToken (n : String) : Reads name (Spelling.nameToken n) n (endsName · = true) := by
  rintro w ⟨rfl, hw⟩ rest hrest
  have htake : (n.toList ++ rest).takeWhile (!endsName ·) = n.toList := by
    rw [List.takeWhile_append_of_pos]
    · cases rest with
      | nil => exact List.append_nil n.toList
      | cons c rest =>
          rw [List.takeWhile_cons_of_neg (by rw [hrest c rfl]; decide), List.append_nil]
    · intro c hc
      obtain ⟨hname, hblank⟩ := Spelling.of_isNameToken hw hc
      rw [endsName_of_isNameChar hname hblank]
      rfl
  have hne : n.toList ≠ [] := Spelling.ne_nil_of_isNameToken hw
  rw [name_run (by rwa [htake]), htake, String.ofList_toList, List.drop_left]

lemma reads_fullName (n : String) : Reads name (Spelling.fullName n) n (endsName · = true) :=
  (reads_nameToken n).mono fun _ hw => hw.1

lemma splitAtFirst_mark {mark : Char} {cs : List Char} (h : mark ∉ cs) (rest : List Char) :
    splitAtFirst [mark] (cs ++ mark :: rest) = some (cs, rest) := by
  induction cs with
  | nil => simp [splitAtFirst, List.isPrefixOf]
  | cons c cs ih =>
      rw [List.mem_cons, not_or] at h
      simp [splitAtFirst, List.isPrefixOf, h.1, ih h.2]

lemma reads_quotedText (v : String) : Reads quotedText (Spelling.quotedValue v) v P := by
  rintro w ⟨mark, hmark, hfree, rfl⟩ rest -
  have hsplit : splitAtFirst [mark] (v.toList ++ ([mark] ++ rest)) = some (v.toList, rest) :=
    splitAtFirst_mark hfree rest
  rw [List.cons_append, List.append_assoc, quotedText, StateT.run_bind]
  show (ite _ _ _ : DtdScan String).run _ = _
  rw [if_pos (by simpa using hmark), hsplit]
  show some (String.ofList v.toList, rest) = _
  rw [String.ofList_toList]

end DtdScan

end XmlAdvisor
