import XmlAdvisor.Proofs.DefinitionReading
import Mathlib.Data.List.TakeWhile

/-!
# Where declarations end

A declaration ends at the first `>` that is not between quotation marks, whether it is read or
skipped. Skipping one keeps nothing in mind but the mark that is open.  Reading one comes to a
quotation mark only where a value begins, and reads the value up to its other mark; no name and no
fixed text holds a mark or a `>`.  So both agree on where the declaration ends, and reading one does
not look behind its end.

* `openMark`, `EndsDeclaration` — where a declaration ends, without a scanner.
* `skipDeclaration?_eq_some_iff` — skipping a declaration leads behind its end.
* `StopsAt`, `splitAtFirst_eq_some_iff` — looking for an end mark finds where it stands first.
* `DtdScan.Follows` — a step keeps to the declaration, and reads it alike whatever comes behind it.
* `Follows.bind`, `Follows.taken`, … — one rule for each way to put steps together.
* `blanks_inside`, `name_inside`, `quotedText_inside` — the smallest parts.

**Steps.**  Lists and groups are read within a number of steps that depends on all that is left of
the definition.  `Follows` therefore compares two numbers of steps, of which both are enough for the
texts of a length.
-/

namespace XmlAdvisor

/-! ## Quotation marks -/

/-- The quotation mark that is open behind a character, if `mark` was open before it. -/
def markAfter (mark : Option Char) (c : Char) : Option Char :=
  match mark with
  | some q => if c = q then none else some q
  | none => if c = '"' ∨ c = '\'' then some c else none

/-- The quotation mark that is open behind a text. -/
def openMark (text : List Char) : Option Char :=
  text.foldl markAfter none

/-- Whether one declaration ends with a text and not earlier: its quotation marks are in pairs, and
its last character is the only `>` that is not between two of them. -/
def EndsDeclaration (text : List Char) : Prop :=
  ∃ inner, text = inner ++ ['>'] ∧ openMark inner = none ∧
    ∀ before after, inner = before ++ '>' :: after → openMark before ≠ none

lemma skipDeclaration?_cons (mark : Option Char) (c : Char) (cs : List Char) :
    skipDeclaration? mark (c :: cs) =
      if mark = none ∧ c = '>' then some cs else skipDeclaration? (markAfter mark c) cs := by
  cases mark with
  | none =>
      by_cases hend : c = '>'
      · simp [skipDeclaration?, hend]
      · simp [skipDeclaration?, markAfter, hend]
  | some q => simp [skipDeclaration?, markAfter]

lemma skipDeclaration?_iff (mark : Option Char) (cs rest : List Char) :
    skipDeclaration? mark cs = some rest ↔ ∃ inner, cs = inner ++ '>' :: rest ∧
      inner.foldl markAfter mark = none ∧
      ∀ before after, inner = before ++ '>' :: after → before.foldl markAfter mark ≠ none := by
  induction cs generalizing mark with
  | nil => simp [skipDeclaration?]
  | cons c cs ih =>
      rw [skipDeclaration?_cons]
      split_ifs with hend
      · obtain ⟨rfl, rfl⟩ := hend
        constructor
        · intro h
          exact ⟨[], by rw [Option.some.inj h, List.nil_append], rfl, by simp⟩
        · rintro ⟨inner, hcs, -, hfirst⟩
          cases inner with
          | nil => rw [(List.cons.inj hcs).2]
          | cons d inner =>
              obtain ⟨rfl, -⟩ := List.cons.inj hcs
              exact absurd rfl (hfirst [] inner rfl)
      · rw [ih]
        constructor
        · rintro ⟨inner, rfl, hmark, hfirst⟩
          refine ⟨c :: inner, rfl, hmark, fun before after hsplit => ?_⟩
          cases before with
          | nil => exact fun hnone => hend ⟨hnone, (List.cons.inj hsplit).1⟩
          | cons d before =>
              obtain ⟨rfl, hbehind⟩ := List.cons.inj hsplit
              exact hfirst before after hbehind
        · rintro ⟨inner, hcs, hmark, hfirst⟩
          cases inner with
          | nil => exact absurd ⟨hmark, (List.cons.inj hcs).1⟩ hend
          | cons d inner =>
              obtain ⟨rfl, rfl⟩ := List.cons.inj hcs
              exact ⟨inner, rfl, hmark, fun before after hsplit =>
                hfirst (c :: before) after (by rw [hsplit]; rfl)⟩

/-- Skipping a declaration leads behind its end. -/
lemma skipDeclaration?_eq_some_iff {cs rest : List Char} : skipDeclaration? none cs = some rest ↔
    ∃ text, EndsDeclaration text ∧ cs = text ++ rest := by
  rw [skipDeclaration?_iff]
  constructor
  · rintro ⟨inner, rfl, hmark, hfirst⟩
    exact ⟨inner ++ ['>'], ⟨inner, rfl, hmark, hfirst⟩, by simp⟩
  · rintro ⟨_, ⟨inner, rfl, hmark, hfirst⟩, rfl⟩
    exact ⟨inner, by simp, hmark, hfirst⟩

lemma endsDeclaration_iff {text : List Char} :
    EndsDeclaration text ↔ skipDeclaration? none text = some [] := by
  rw [skipDeclaration?_eq_some_iff]
  simp

lemma mem_of_skipDeclaration? {mark : Option Char} {cs rest : List Char}
    (h : skipDeclaration? mark cs = some rest) : '>' ∈ cs := by
  obtain ⟨inner, rfl, -⟩ := (skipDeclaration?_iff mark cs rest).mp h
  simp

/-- A mark that is open is closed before the end of the declaration. -/
lemma mark_mem_of_skipDeclaration? {mark : Char} {cs rest : List Char}
    (h : skipDeclaration? (some mark) cs = some rest) : mark ∈ cs := by
  induction cs with
  | nil => cases h
  | cons c cs ih =>
      rw [skipDeclaration?_cons, if_neg (by simp), markAfter] at h
      split_ifs at h with hsame
      · exact hsame ▸ List.mem_cons_self ..
      · exact List.mem_cons_of_mem c (ih h)

/-! ## Texts without marks -/

/-- Whether a character neither opens a value nor ends a declaration. -/
def IsPlain (c : Char) : Prop :=
  c ≠ '>' ∧ c ≠ '"' ∧ c ≠ '\''
  deriving Decidable

/-- Whether all characters of a fixed text are of this kind. -/
def IsPlainText (s : String) : Prop :=
  ∀ c ∈ s.toList, IsPlain c

instance (s : String) : Decidable (IsPlainText s) :=
  decidable_of_iff (s.toList.all (IsPlain ·) = true) (by simp [IsPlainText])

lemma skipDeclaration?_plain {text : List Char} (h : ∀ c ∈ text, IsPlain c) (rest : List Char) :
    skipDeclaration? none (text ++ rest) = skipDeclaration? none rest := by
  induction text with
  | nil => rfl
  | cons c text ih =>
      obtain ⟨hend, hdouble, hsingle⟩ := h c (List.mem_cons_self ..)
      rw [List.cons_append, skipDeclaration?_cons, if_neg (by simp [hend]), markAfter,
        if_neg (by simp [hdouble, hsingle]), ih fun d hd => h d (List.mem_cons_of_mem c hd)]

lemma skipDeclaration?_value {mark : Char} {value : List Char} (h : mark ∉ value)
    (rest : List Char) :
    skipDeclaration? (some mark) (value ++ mark :: rest) = skipDeclaration? none rest := by
  induction value with
  | nil => rw [List.nil_append, skipDeclaration?_cons, if_neg (by simp), markAfter, if_pos rfl]
  | cons c value ih =>
      rw [List.mem_cons, not_or] at h
      rw [List.cons_append, skipDeclaration?_cons, if_neg (by simp), markAfter,
        if_neg (Ne.symm h.1), ih h.2]

/-- Whether a text comes next does not depend on what is behind a character that it does not
hold. -/
lemma isPrefixOf_append_of_mem {s cs : List Char} {c : Char} (hc : c ∈ cs) (hs : c ∉ s)
    (more : List Char) : s.isPrefixOf (cs ++ more) = s.isPrefixOf cs := by
  rw [Bool.eq_iff_iff, List.isPrefixOf_iff_prefix, List.isPrefixOf_iff_prefix]
  refine ⟨fun h => ?_, fun h => h.trans (List.prefix_append cs more)⟩
  rcases List.prefix_or_prefix_of_prefix h (List.prefix_append cs more) with h | h
  · exact h
  · exact absurd (h.subset hc) hs

/-! ## Looking for an end mark -/

/-- Whether an end mark stands behind a text and nowhere earlier. -/
def StopsAt (ending text : List Char) : Prop :=
  ∀ before after, text ++ ending = before ++ (ending ++ after) → after = []

lemma stopsAt_nil (ending : List Char) : StopsAt ending [] := by
  intro before after h
  have hlength := congrArg List.length h
  simp only [List.nil_append, List.length_append] at hlength
  exact List.length_eq_zero_iff.mp (by omega)

/-- An end mark stands nowhere earlier exactly if it does not come next, and not behind that. -/
lemma stopsAt_cons {ending text : List Char} {c : Char} : StopsAt ending (c :: text) ↔
    ¬ending <+: c :: (text ++ ending) ∧ StopsAt ending text := by
  constructor
  · intro h
    refine ⟨?_, fun before after hsplit => h (c :: before) after (by simp [hsplit])⟩
    rintro ⟨after, hafter⟩
    rw [h [] after hafter.symm, List.append_nil] at hafter
    have hlength := congrArg List.length hafter
    simp only [List.length_cons, List.length_append] at hlength
    omega
  · rintro ⟨hnext, hmore⟩ before after hsplit
    cases before with
    | nil => exact absurd ⟨after, hsplit.symm⟩ hnext
    | cons d before => exact hmore before after (List.cons.inj hsplit).2

/-- Looking for an end mark cuts a text where the mark stands first. -/
lemma splitAtFirst_eq_some_iff {ending cs text rest : List Char} :
    splitAtFirst ending cs = some (text, rest) ↔
      cs = text ++ (ending ++ rest) ∧ StopsAt ending text := by
  induction cs generalizing text with
  | nil =>
      rw [splitAtFirst]
      split_ifs with hempty
      · rw [List.isEmpty_iff.mp hempty]
        constructor
        · rintro ⟨⟩
          exact ⟨rfl, stopsAt_nil []⟩
        · rintro ⟨hnil, -⟩
          obtain ⟨rfl, hrest⟩ := List.append_eq_nil_iff.mp hnil.symm
          rw [List.nil_append] at hrest
          rw [hrest]
      · refine iff_of_false (by simp) ?_
        rintro ⟨hnil, -⟩
        have hending := (List.append_eq_nil_iff.mp (List.append_eq_nil_iff.mp hnil.symm).2).1
        exact hempty (List.isEmpty_iff.mpr hending)
  | cons c cs ih =>
      rw [splitAtFirst]
      split_ifs with hnext
      · obtain ⟨behind, hbehind⟩ := List.isPrefixOf_iff_prefix.mp hnext
        rw [← hbehind, List.drop_left, Option.some.injEq, Prod.mk.injEq]
        constructor
        · rintro ⟨rfl, rfl⟩
          exact ⟨rfl, stopsAt_nil ending⟩
        · rintro ⟨hsplit, hstops⟩
          cases text with
          | nil => exact ⟨rfl, List.append_cancel_left hsplit⟩
          | cons d text =>
              refine absurd ?_ (stopsAt_cons.mp hstops).1
              refine List.prefix_of_prefix_length_le (List.prefix_append ending behind)
                ⟨rest, by simp [hsplit]⟩ ?_
              rw [List.length_cons, List.length_append]
              omega
      · rw [Option.map_eq_some_iff]
        constructor
        · rintro ⟨⟨inner, behind⟩, hinner, hcut⟩
          cases hcut
          obtain ⟨rfl, hstops⟩ := ih.mp hinner
          refine ⟨rfl, stopsAt_cons.mpr ⟨fun hbegins => hnext ?_, hstops⟩⟩
          rw [List.isPrefixOf_iff_prefix]
          exact hbegins.trans ⟨rest, by simp⟩
        · rintro ⟨hsplit, hstops⟩
          cases text with
          | nil => exact absurd (by rw [hsplit]; simp) hnext
          | cons d text =>
              obtain ⟨rfl, hrest⟩ := List.cons.inj hsplit
              exact ⟨(text, rest), ih.mpr ⟨hrest, (stopsAt_cons.mp hstops).2⟩, rfl⟩

/-- A cut is the same whatever more comes behind the text. -/
lemma splitAtFirst_append {ending cs text rest : List Char}
    (h : splitAtFirst ending cs = some (text, rest)) (more : List Char) :
    splitAtFirst ending (cs ++ more) = some (text, rest ++ more) := by
  obtain ⟨rfl, hstops⟩ := splitAtFirst_eq_some_iff.mp h
  exact splitAtFirst_eq_some_iff.mpr ⟨by simp, hstops⟩

/-! ## Steps that keep to a declaration -/

namespace DtdScan

variable {α β : Type} {k : List Char → Option (List Char)} {n : Nat}

/-- Whether two steps keep to a declaration and read it alike.  On texts of at most `n` characters,
the declaration ends where `k` tells of what the first step leaves; and the second step reads from a
declaration with more behind it what the first one reads from the declaration alone. -/
structure Follows (k : List Char → Option (List Char)) (n : Nat) (m m' : DtdScan α) : Prop where
  skips : ∀ {cs a rest}, cs.length ≤ n → m.run cs = some (a, rest) →
    rest.length ≤ cs.length ∧ skipDeclaration? none cs = k rest
  prolongs : ∀ {cs}, cs.length ≤ n → skipDeclaration? none cs = some [] → ∀ more,
    m'.run (cs ++ more) = (m.run cs).map fun (a, rest) => (a, rest ++ more)

/-- Steps inside a declaration: it ends where the rest of it does. -/
abbrev Inside (n : Nat) (m m' : DtdScan α) : Prop :=
  Follows (skipDeclaration? none) n m m'

/-- Steps that end a declaration: it ends where they have read up to. -/
abbrev Closes (n : Nat) (m m' : DtdScan α) : Prop :=
  Follows some n m m'

section Rules

variable {m m' : DtdScan α} {f f' : α → DtdScan β}

lemma Follows.pure (a : α) : Inside n (pure a) (pure a) where
  skips := by
    rintro cs _ rest - ⟨⟩
    exact ⟨Nat.le_refl _, rfl⟩
  prolongs := fun _ _ _ => rfl

lemma Follows.failure : Follows k n (failure : DtdScan α) failure where
  skips := by
    rintro cs a rest - ⟨⟩
  prolongs := fun _ _ _ => rfl

lemma Follows.ite {c : Prop} [Decidable c] {yes yes' no no' : DtdScan α}
    (hyes : Follows k n yes yes') (hno : Follows k n no no') :
    Follows k n (if c then yes else no) (if c then yes' else no') := by
  split_ifs
  · exact hyes
  · exact hno

lemma exists_of_run_bind {cs rest : List Char} {b : β} (h : (m >>= f).run cs = some (b, rest)) :
    ∃ a mid, m.run cs = some (a, mid) ∧ (f a).run mid = some (b, rest) := by
  rw [StateT.run_bind] at h
  obtain ⟨⟨a, mid⟩, hm, hf⟩ := Option.bind_eq_some_iff.mp h
  exact ⟨a, mid, hm, hf⟩

/-- What comes behind a step that reads `d a` characters at least has so many less to read. -/
lemma Follows.bindBehind {d : α → Nat} (hm : Inside n m m')
    (hd : ∀ {cs a rest}, cs.length ≤ n → m.run cs = some (a, rest) → rest.length + d a ≤ cs.length)
    (hf : ∀ a j, n = j + d a → Follows k j (f a) (f' a)) :
    Follows k n (m >>= f) (m' >>= f') where
  skips := by
    intro cs b rest hle h
    obtain ⟨a, mid, hfirst, hthen⟩ := exists_of_run_bind h
    have hshort := hd hle hfirst
    obtain ⟨hrest, hskip⟩ := (hf a (n - d a) (by omega)).skips (by omega) hthen
    exact ⟨by omega, (hm.skips hle hfirst).2.trans hskip⟩
  prolongs := by
    intro cs hle hends more
    rw [StateT.run_bind, StateT.run_bind, hm.prolongs hle hends more]
    cases hfirst : m.run cs with
    | none => rfl
    | some read =>
        obtain ⟨a, mid⟩ := read
        have hshort := hd hle hfirst
        have hmid := (hm.skips hle hfirst).2
        exact (hf a (n - d a) (by omega)).prolongs (by omega) (hmid.symm.trans hends) more

lemma Follows.bind (hm : Inside n m m') (hf : ∀ a, Follows k n (f a) (f' a)) :
    Follows k n (m >>= f) (m' >>= f') := by
  refine hm.bindBehind (d := fun _ => 0) (fun hle h => (hm.skips hle h).1) ?_
  rintro a j rfl
  exact hf a

/-- After the last step, what was read is put together. -/
lemma Follows.last (hm : Follows k n m m') (g : α → β) :
    Follows k n (m >>= fun a => Pure.pure (g a)) (m' >>= fun a => Pure.pure (g a)) where
  skips := by
    intro cs b rest hle h
    obtain ⟨a, mid, hfirst, hthen⟩ := exists_of_run_bind h
    cases hthen
    exact hm.skips hle hfirst
  prolongs := by
    intro cs hle hends more
    rw [StateT.run_bind, StateT.run_bind, hm.prolongs hle hends more]
    cases m.run cs <;> rfl

/-- Steps that have enough for what is left have so for each part of it. -/
lemma Follows.within {m : Nat → DtdScan α}
    (h : ∀ j s t, 2 * j + 2 ≤ s → 2 * j + 2 ≤ t → Follows k j (m s) (m t)) :
    Follows k n (enough >>= m) (enough >>= m) where
  skips := by
    intro cs a rest _ hrun
    exact (h cs.length _ _ (Nat.le_refl _) (Nat.le_refl _)).skips (Nat.le_refl _) hrun
  prolongs := by
    intro cs _ hends more
    refine (h cs.length (2 * cs.length + 2) (2 * (cs ++ more).length + 2)
      (Nat.le_refl _) ?_).prolongs
      (Nat.le_refl _) hends more
    rw [List.length_append]
    omega

end Rules

/-! ### Fixed texts -/

lemma take_inside {s : String} (hs : IsPlainText s) : Inside n (take s) (take s) where
  skips := by
    intro cs a rest _ h
    rw [take_run] at h
    split_ifs at h with hnext
    · cases h
      obtain ⟨behind, rfl⟩ := List.isPrefixOf_iff_prefix.mp hnext
      rw [← s.length_toList, List.drop_left]
      exact ⟨by simp, skipDeclaration?_plain hs behind⟩
    · cases h
      exact ⟨Nat.le_refl _, rfl⟩
  prolongs := by
    intro cs _ hends more
    have hsame := isPrefixOf_append_of_mem (mem_of_skipDeclaration? hends)
      (fun hmem => (hs _ hmem).1 rfl) more
    rw [take_run, take_run, hsame]
    split_ifs with hnext
    · have hlength := (List.isPrefixOf_iff_prefix.mp hnext).length_le
      rw [s.length_toList] at hlength
      rw [List.drop_append_of_le_length hlength]
      rfl
    · rfl

lemma take_length_le {s : String} {cs rest : List Char} {t : Bool}
    (h : (take s).run cs = some (t, rest)) :
    rest.length + (if t = true then s.length else 0) ≤ cs.length := by
  rw [take_run] at h
  split_ifs at h with hnext
  · cases h
    have hlength := (List.isPrefixOf_iff_prefix.mp hnext).length_le
    rw [s.length_toList] at hlength
    rw [List.length_drop, if_pos rfl]
    omega
  · cases h
    exact Nat.le_refl _

/-- A fixed text that may come next. -/
lemma Follows.taken {s : String} {yes yes' no no' : DtdScan α} (hs : IsPlainText s)
    (hyes : ∀ j, n = j + s.length → Follows k j yes yes') (hno : Follows k n no no') :
    Follows k n (take s >>= fun t => if t = true then yes else no)
      (take s >>= fun t => if t = true then yes' else no') := by
  refine (take_inside hs).bindBehind (d := fun t => if t = true then s.length else 0)
    (fun _ h => take_length_le h) ?_
  rintro (_ | _) j rfl
  · exact hno
  · exact hyes j rfl

lemma need_inside {s : String} (hs : IsPlainText s) : Inside n (need s) (need s) :=
  (take_inside hs).bind fun _ => .ite .failure (.pure ())

lemma need_length_le {s : String} {cs rest : List Char} {u : Unit}
    (h : (need s).run cs = some (u, rest)) : rest.length + s.length ≤ cs.length := by
  obtain ⟨t, mid, htake, h⟩ := exists_of_run_bind h
  have hlength := take_length_le htake
  cases t with
  | false => cases h
  | true =>
      cases h
      exact hlength

/-- A fixed text that must come next. -/
lemma Follows.needed {s : String} {f f' : Unit → DtdScan α} (hs : IsPlainText s)
    (hf : ∀ j, n = j + s.length → Follows k j (f ()) (f' ())) :
    Follows k n (need s >>= f) (need s >>= f') :=
  (need_inside hs).bindBehind (d := fun _ => s.length) (fun _ h => need_length_le h)
    fun _ j hj => hf j hj

/-! ### The end of a declaration -/

lemma take_end_run (c : Char) (cs : List Char) : (take ">").run (c :: cs) =
    if c = '>' then some (true, cs) else some (false, c :: cs) := by
  rw [take_run]
  by_cases hend : c = '>'
  · rw [if_pos hend, hend]
    rfl
  · rw [if_neg hend, if_neg]
    rw [List.isPrefixOf_iff_prefix]
    rintro ⟨behind, hbehind⟩
    exact hend (List.cons.inj hbehind).1.symm

/-- The end of a declaration, which may come next. -/
lemma Closes.ended {no no' : DtdScan α} (hno : Closes n no no') (a : α) :
    Closes n (take ">" >>= fun t => if t = true then Pure.pure a else no)
      (take ">" >>= fun t => if t = true then Pure.pure a else no') where
  skips := by
    intro cs b rest hle h
    cases cs with
    | nil => exact hno.skips hle h
    | cons c cs =>
        rw [StateT.run_bind, take_end_run] at h
        split_ifs at h with hend
        · cases h
          rw [skipDeclaration?_cons, if_pos ⟨rfl, hend⟩]
          exact ⟨Nat.le_succ _, rfl⟩
        · exact hno.skips hle h
  prolongs := by
    intro cs hle hends more
    cases cs with
    | nil => cases hends
    | cons c cs =>
        rw [StateT.run_bind, StateT.run_bind, List.cons_append, take_end_run, take_end_run]
        split_ifs with hend
        · rw [skipDeclaration?_cons, if_pos ⟨rfl, hend⟩, Option.some.injEq] at hends
          rw [hends]
          rfl
        · exact hno.prolongs hle hends more

/-- The end of a declaration, which must come next. -/
lemma need_closes : Closes n (need ">") (need ">") := by
  have hneed : need ">" = take ">" >>= fun t => if t = true then Pure.pure () else failure := by
    rw [need]
    congr 1
    funext t
    cases t <;> rfl
  rw [hneed]
  exact Closes.ended Follows.failure ()

/-! ### White space, names and values -/

/-- What comes first of some kind is the same whatever comes behind a character of another kind. -/
lemma dropWhile_append_of_mem {p : Char → Bool} {cs : List Char} {c : Char} (hc : c ∈ cs)
    (hp : p c = false) (more : List Char) : (cs ++ more).takeWhile p = cs.takeWhile p ∧
      (cs ++ more).dropWhile p = cs.dropWhile p ++ more := by
  induction cs with
  | nil => cases hc
  | cons d cs ih =>
      rw [List.cons_append]
      cases hd : p d with
      | false => simp [hd]
      | true =>
          have hmem : c ∈ cs := by
            rcases List.mem_cons.mp hc with rfl | hmem
            · rw [hp] at hd
              cases hd
            · exact hmem
          simp [hd, ih hmem]

lemma isPlain_of_isXmlSpace {c : Char} (h : isXmlSpace c = true) : IsPlain c :=
  Spelling.of_isXmlSpace h (by decide)

lemma blanks_inside : Inside n blanks blanks where
  skips := by
    rintro cs _ _ - ⟨⟩
    refine ⟨(List.dropWhile_suffix _).length_le, ?_⟩
    nth_rewrite 1 [← List.takeWhile_append_dropWhile (p := isXmlSpace) (l := cs)]
    exact skipDeclaration?_plain (fun c hc => isPlain_of_isXmlSpace (List.mem_takeWhile_imp hc)) _
  prolongs := by
    intro cs _ hends more
    have hdrop := (dropWhile_append_of_mem (p := isXmlSpace)
      (mem_of_skipDeclaration? hends) rfl more).2
    show some (decide (((cs ++ more).dropWhile isXmlSpace).length < (cs ++ more).length),
      (cs ++ more).dropWhile isXmlSpace) = _
    rw [hdrop, List.length_append, List.length_append]
    simp only [Nat.add_lt_add_iff_right]
    rfl

lemma someBlanks_inside : Inside n someBlanks someBlanks :=
  blanks_inside.bind fun _ => .ite .failure (.pure ())

lemma isPlain_of_not_endsName {c : Char} (h : endsName c = false) : IsPlain c := by
  refine ⟨?_, ?_, ?_⟩
  all_goals
    rintro rfl
    exact absurd h (by decide)

lemma name_run_eq (cs : List Char) : name.run cs =
    if cs.takeWhile (!endsName ·) = [] then none
    else some (String.ofList (cs.takeWhile (!endsName ·)), cs.dropWhile (!endsName ·)) := by
  split_ifs with hempty
  · show (if (cs.takeWhile (!endsName ·)).isEmpty = true then _ else _ : DtdScan String).run cs = _
    rw [hempty]
    rfl
  · have hdrop : cs.drop (cs.takeWhile (!endsName ·)).length = cs.dropWhile (!endsName ·) := by
      nth_rewrite 2 [← List.takeWhile_append_dropWhile (p := (!endsName ·)) (l := cs)]
      exact List.drop_left
    rw [name_run hempty, hdrop]

lemma name_length_lt {cs rest : List Char} {s : String} (h : name.run cs = some (s, rest)) :
    rest.length + 1 ≤ cs.length := by
  rw [name_run_eq] at h
  split_ifs at h with hempty
  cases h
  have hlength := congrArg List.length
    (List.takeWhile_append_dropWhile (p := (!endsName ·)) (l := cs))
  have hpos := List.length_pos_iff.mpr hempty
  rw [List.length_append] at hlength
  omega

lemma name_inside : Inside n name name where
  skips := by
    intro cs s rest _ h
    refine ⟨Nat.le_of_succ_le (name_length_lt h), ?_⟩
    rw [name_run_eq] at h
    split_ifs at h with hempty
    cases h
    nth_rewrite 1 [← List.takeWhile_append_dropWhile (p := (!endsName ·)) (l := cs)]
    exact skipDeclaration?_plain (fun c hc => isPlain_of_not_endsName (by
      simpa using List.mem_takeWhile_imp hc)) _
  prolongs := by
    intro cs _ hends more
    obtain ⟨htake, hdrop⟩ :=
      dropWhile_append_of_mem (p := (!endsName ·)) (mem_of_skipDeclaration? hends) rfl more
    rw [name_run_eq, name_run_eq, htake, hdrop]
    split_ifs <;> rfl

lemma quotedText_run (c : Char) (cs : List Char) : quotedText.run (c :: cs) =
    if c = '"' ∨ c = '\'' then
      (splitAtFirst [c] cs).map fun (value, rest) => (String.ofList value, rest)
    else none := by
  show (ite _ _ _ : DtdScan String).run (c :: cs) = _
  have hmark : (c == '"' || c == '\'') = true ↔ c = '"' ∨ c = '\'' := by simp
  by_cases h : c = '"' ∨ c = '\''
  · rw [if_pos (hmark.mpr h), if_pos h]
    cases splitAtFirst [c] cs <;> rfl
  · rw [if_neg (mt hmark.mp h), if_neg h]
    rfl

/-- A value does not hold the mark that ends it. -/
lemma notMem_of_stopsAt {mark : Char} {value : List Char} (h : StopsAt [mark] value) :
    mark ∉ value := by
  intro hmem
  obtain ⟨before, after, rfl⟩ := List.append_of_mem hmem
  exact absurd (h before (after ++ [mark]) (by simp)) (by simp)

lemma skipDeclaration?_mark {c : Char} (h : c = '"' ∨ c = '\'') (cs : List Char) :
    skipDeclaration? none (c :: cs) = skipDeclaration? (some c) cs := by
  have hend : c ≠ '>' := by
    rcases h with rfl | rfl <;> decide
  rw [skipDeclaration?_cons, if_neg (by simp [hend]), markAfter, if_pos h]

lemma quotedText_inside : Inside n quotedText quotedText where
  skips := by
    intro cs s rest _ h
    cases cs with
    | nil => cases h
    | cons c cs =>
        rw [quotedText_run] at h
        split_ifs at h with hmark
        obtain ⟨⟨value, behind⟩, hcut, hread⟩ := Option.map_eq_some_iff.mp h
        cases hread
        obtain ⟨rfl, hstops⟩ := splitAtFirst_eq_some_iff.mp hcut
        rw [skipDeclaration?_mark hmark]
        exact ⟨by simp; omega, skipDeclaration?_value (notMem_of_stopsAt hstops) rest⟩
  prolongs := by
    intro cs _ hends more
    cases cs with
    | nil => cases hends
    | cons c cs =>
        rw [List.cons_append, quotedText_run, quotedText_run]
        split_ifs with hmark
        · rw [skipDeclaration?_mark hmark] at hends
          obtain ⟨value, behind, rfl, hfree⟩ :=
            List.eq_append_cons_of_mem (mark_mem_of_skipDeclaration? hends)
          rw [splitAtFirst_append (splitAtFirst_mark hfree behind) more,
            splitAtFirst_mark hfree behind]
          rfl
        · rfl

end DtdScan

end XmlAdvisor
