import XmlAdvisor.Proofs.Positions
import XmlAdvisor.Proofs.Reporting
import Mathlib.Order.Bounds.Basic

/-!
# Positions and offsets come in the same order

A position names a line and a column on it, an offset a place in the text.  Both are read along the
text, so the one never goes back where the other goes on.

**Places.**  An offset lies on one line, behind some of the characters that can be addressed there,
and its column measures these characters (`positionOf_eq_some_iff`).  The last character of a break
is out of reach, so the next line begins behind all places of the line before
(`lineStart_le_of_lt`).

**Columns.**  Walking along a line stops at the first place whose column is not smaller than the one
asked for, or at the last place there is (`ColumnUnit.reach`).  A column inside a character thus
leads behind that character, and a column behind the end of a line stays on the line.

* `Document.offsetsOn` — the offsets of a line; `Document.offsetsFrom` — those from a column on.
* **`Document.offsets_follow_positions`** — what the offset of a position is, and that both
  directions keep the order.
-/

namespace XmlAdvisor

/-! ## Along a line -/

namespace ColumnUnit

variable (unit : ColumnUnit)

/-- Of two places on a line the later one has the larger column. -/
lemma measure_take_lt (cs : List Char) {j k : Nat} (hjk : j < k) (hk : k ≤ cs.length) :
    unit.measure (cs.take j) < unit.measure (cs.take k) := by
  induction cs generalizing j k with
  | nil =>
      rw [List.length_nil] at hk
      omega
  | cons c cs ih =>
      obtain ⟨k, rfl⟩ : ∃ k', k = k' + 1 := ⟨k - 1, by omega⟩
      rw [List.length_cons] at hk
      have hc := unit.width_pos c
      rw [List.take_succ_cons, measure_cons]
      cases j with
      | zero =>
          show 0 < _
          omega
      | succ j =>
          rw [List.take_succ_cons, measure_cons]
          have hmore := ih (j := j) (k := k) (by omega) (by omega)
          omega

lemma reach_le_length (cs : List Char) (target : Nat) : unit.reach cs target ≤ cs.length := by
  induction cs generalizing target with
  | nil => exact Nat.le_refl _
  | cons c cs ih =>
      rw [reach]
      split_ifs
      · exact Nat.zero_le _
      · have hmore := ih (target - unit.width c)
        rw [List.length_cons]
        omega

/-- The walk does not stop before the column that is asked for, but at the end of the line. -/
lemma le_measure_take_reach (cs : List Char) (target : Nat) (h : unit.reach cs target < cs.length) :
    target ≤ unit.measure (cs.take (unit.reach cs target)) := by
  induction cs generalizing target with
  | nil =>
      rw [List.length_nil] at h
      omega
  | cons c cs ih =>
      rw [reach] at h ⊢
      split_ifs at h ⊢ with hzero
      · omega
      · rw [List.length_cons] at h
        have hmore := ih (target - unit.width c) (by omega)
        rw [Nat.add_comm, List.take_succ_cons, measure_cons]
        omega

/-- All places that the walk goes past have smaller columns. -/
lemma measure_take_lt_of_lt_reach (cs : List Char) (target : Nat) {j : Nat}
    (h : j < unit.reach cs target) : unit.measure (cs.take j) < target := by
  induction cs generalizing target j with
  | nil =>
      rw [reach] at h
      omega
  | cons c cs ih =>
      rw [reach] at h
      split_ifs at h with hzero
      · omega
      · cases j with
        | zero =>
            show 0 < target
            omega
        | succ j =>
            have hmore := ih (target - unit.width c) (j := j) (by omega)
            rw [List.take_succ_cons, measure_cons]
            omega

/-- A larger column leads no less far. -/
lemma reach_mono (cs : List Char) {target target' : Nat} (h : target ≤ target') :
    unit.reach cs target ≤ unit.reach cs target' := by
  by_contra hlt
  rw [Nat.not_le] at hlt
  have hlength := unit.reach_le_length cs target
  have hbefore := unit.measure_take_lt_of_lt_reach cs target hlt
  have hreached := unit.le_measure_take_reach cs target' (by omega)
  omega

end ColumnUnit

/-! ## Lines -/

/-- Every line but the last ends in a break. -/
lemma isLineBreak_of_mem_dropLast (text line : List Char) (h : line ∈ (lines text).dropLast) :
    ∃ c, line.getLast? = some c ∧ isLineBreak c = true := by
  fun_induction lines text generalizing line with
  | case1 => cases h
  | case2 rest ih =>
      rw [List.dropLast_cons_of_ne_nil (lines_ne_nil rest)] at h
      rcases List.mem_cons.mp h with rfl | h
      · exact ⟨'\n', rfl, by decide⟩
      · exact ih line h
  | case3 c rest hcr hbreak ih =>
      rw [List.dropLast_cons_of_ne_nil (lines_ne_nil rest)] at h
      rcases List.mem_cons.mp h with rfl | h
      · exact ⟨c, rfl, hbreak⟩
      · exact ih line h
  | case4 c rest hcr hbreak hnil ih => exact absurd hnil (lines_ne_nil rest)
  | case5 c rest hcr hbreak head more hlines ih =>
      rw [hlines] at ih
      cases more with
      | nil => cases h
      | cons next more =>
          rcases List.mem_cons.mp h with rfl | h
          · obtain ⟨d, hd, hbreak⟩ := ih head (List.mem_cons_self ..)
            refine ⟨d, ?_, hbreak⟩
            cases head with
            | nil => cases hd
            | cons e head => exact hd
          · exact ih line (List.mem_cons_of_mem head h)

/-- The last character of a line with a break cannot be addressed. -/
lemma addressable_length_of_break {line : List Char} {c : Char} (hc : line.getLast? = some c)
    (hbreak : isLineBreak c = true) : (addressable line).length < line.length := by
  have hne : line ≠ [] := by
    rintro rfl
    cases hc
  have hpos := List.length_pos_iff.mpr hne
  rw [addressable, hc]
  simp only [hbreak, if_true, List.length_dropLast]
  omega

variable {unit : ColumnUnit} {text line : List Char} {i : Nat}

lemma lineStart_succ (h : (lines text)[i]? = some line) :
    lineStart text (i + 1) = lineStart text i + line.length := by
  have htake : (lines text).take (i + 1) = (lines text).take i ++ [line] := by
    rw [List.take_add_one, h]
    rfl
  have hsum (ls : List Nat) (n : Nat) : (ls ++ [n]).foldr (· + ·) 0 = ls.foldr (· + ·) 0 + n := by
    induction ls with
    | nil => simp
    | cons m ls ih =>
        simp only [List.cons_append, List.foldr_cons, ih]
        omega
  rw [lineStart, lineStart, htake, List.map_append, List.map_singleton, hsum]

lemma lineStart_mono {j : Nat} (h : i ≤ j) : lineStart text i ≤ lineStart text j := by
  induction j, h using Nat.le_induction with
  | base => exact Nat.le_refl _
  | succ j _ ih =>
      cases hl : (lines text)[j]? with
      | none =>
          have hlong : (lines text).length ≤ j := List.getElem?_eq_none_iff.mp hl
          rw [lineStart, lineStart, List.take_of_length_le (Nat.le_succ_of_le hlong)]
          rwa [lineStart, lineStart, List.take_of_length_le hlong] at ih
      | some l =>
          rw [lineStart_succ hl]
          omega

/-- What can be addressed on a line lies before the lines behind it. -/
lemma lineStart_le_of_lt {j k : Nat} (h : (lines text)[i]? = some line) (hij : i < j)
    (hk : k ≤ (addressable line).length) : lineStart text i + k ≤ lineStart text j := by
  have hnext : lineStart text (i + 1) ≤ lineStart text j := lineStart_mono hij
  have hlength := (addressable_leading line).1.length_le
  rw [lineStart_succ h] at hnext
  omega

/-- What can be addressed on a line lies before a line that begins behind it. -/
lemma lineStart_lt_of_lt {j k : Nat} {next : List Char} (h : (lines text)[i]? = some line)
    (hnext : (lines text)[j]? = some next) (hij : i < j) (hk : k ≤ (addressable line).length) :
    lineStart text i + k < lineStart text j := by
  have hmem : line ∈ (lines text).dropLast := by
    have hj := (List.getElem?_eq_some_iff.mp hnext).1
    refine List.mem_of_getElem? (i := i) ?_
    rw [List.getElem?_dropLast, if_pos (by omega), h]
  obtain ⟨c, hc, hbreak⟩ := isLineBreak_of_mem_dropLast text line hmem
  have hshort := addressable_length_of_break hc hbreak
  have hbehind : lineStart text (i + 1) ≤ lineStart text j := lineStart_mono hij
  rw [lineStart_succ h] at hbehind
  omega

/-! ## Places -/

/-- Behind all lines is the end of the text. -/
lemma lineStart_length (text : List Char) : lineStart text (lines text).length = text.length := by
  rw [lineStart, List.take_length]
  nth_rewrite 2 [← flatten_lines text]
  rw [List.length_flatten, List.sum_eq_foldr]

/-- The offset of a place that can be addressed is inside the text. -/
lemma place_le_length {k : Nat} (h : (lines text)[i]? = some line)
    (hk : k ≤ (addressable line).length) : lineStart text i + k ≤ text.length := by
  have hi := (List.getElem?_eq_some_iff.mp h).1
  rw [← lineStart_length]
  exact lineStart_le_of_lt h hi hk

/-- Where an offset lies: on a line, behind some of what can be addressed there, with the column
that measures it. -/
lemma positionOf_eq_some_iff {offset : Nat} {p : Position} :
    positionOf unit text offset = some p ↔
      ∃ line k, (lines text)[p.line]? = some line ∧ k ≤ (addressable line).length ∧
        p.column = unit.measure (line.take k) ∧ offset = lineStart text p.line + k := by
  have hforth {offset : Nat} {p : Position} (h : positionOf unit text offset = some p) :
      ∃ line k, (lines text)[p.line]? = some line ∧ k ≤ (addressable line).length ∧
        p.column = unit.measure (line.take k) ∧ offset = lineStart text p.line + k := by
    obtain ⟨i, line, k, hline, rfl, hk, rfl⟩ :=
      among_positionAmong unit (lines text) 0 offset (fun _ => addressable_of_last) h
    exact ⟨line, k, by rwa [Nat.zero_add], hk, rfl, by rw [Nat.zero_add]; rfl⟩
  refine ⟨hforth, ?_⟩
  rintro ⟨line, k, hline, hk, hcolumn, rfl⟩
  obtain ⟨q, hq⟩ := exists_positionAmong unit (lines text) 0 (lineStart text p.line + k)
    (lines_ne_nil text) (by rw [flatten_lines]; exact place_le_length hline hk)
  obtain ⟨line', k', hline', hk', hcolumn', hoffset⟩ := hforth (p := q) hq
  -- two places of one offset are on one line, and then the same
  have hsame : p.line = q.line := by
    rcases Nat.lt_trichotomy p.line q.line with hlt | heq | hgt
    · have := lineStart_lt_of_lt hline hline' hlt hk
      omega
    · exact heq
    · have := lineStart_lt_of_lt hline' hline hgt hk'
      omega
  rw [← hsame, hline, Option.some.injEq] at hline'
  subst hline'
  have hk : k = k' := by
    rw [← hsame] at hoffset
    omega
  subst hk
  have hpq : p = q := by
    cases p
    cases q
    simp_all
  rw [← hpq] at hq
  exact hq

/-- The offset of a position on a line that exists is a place on the line. -/
lemma offsetOf_eq_some {p : Position} (h : (lines text)[p.line]? = some line) :
    offsetOf unit text p = some
    (lineStart text p.line + unit.reach (addressable line) p.column) := by
  rw [offsetOf, h]
  rfl

/-- Columns of a line measure what can be addressed on it. -/
lemma measure_take_addressable {k : Nat} (hk : k ≤ (addressable line).length) :
    unit.measure (line.take k) = unit.measure ((addressable line).take k) := by
  obtain ⟨broken, hbroken⟩ := (addressable_leading line).1
  rw [← hbroken, List.take_append_of_le_length]
  · rw [hbroken]
  · exact hk

/-! ## Documents -/

namespace Document

variable {d : Document}

/-- The offsets of a line. -/
def offsetsOn (d : Document) (line : Nat) : Set Nat :=
  {offset | ∃ p, d.positionAt offset = .ok p ∧ p.line = line}

/-- The offsets of a line whose columns are not smaller than a position's. -/
def offsetsFrom (d : Document) (p : Position) : Set Nat :=
  {offset | ∃ q, d.positionAt offset = .ok q ∧ q.line = p.line ∧ p.column ≤ q.column}

lemma positionAt_eq_ok_iff {offset : Nat} {p : Position} :
    d.positionAt offset = .ok p ↔
      ∃ line k, (lines d.text)[p.line]? = some line ∧ k ≤ (addressable line).length ∧
        p.column = d.unit.measure ((addressable line).take k) ∧
        offset = lineStart d.text p.line + k := by
  have hok : d.positionAt offset = .ok p ↔ positionOf d.unit d.text offset = some p := by
    rw [positionAt]
    cases positionOf d.unit d.text offset <;> simp
  rw [hok, positionOf_eq_some_iff]
  refine exists₂_congr fun line k => and_congr_right fun _ => and_congr_right fun hk => ?_
  rw [measure_take_addressable hk]

lemma offsetAt_eq_ok_iff {offset : Nat} {p : Position} :
    d.offsetAt p = .ok offset ↔ ∃ line, (lines d.text)[p.line]? = some line ∧
      offset = lineStart d.text p.line + d.unit.reach (addressable line) p.column := by
  rw [offsetAt]
  cases hline : (lines d.text)[p.line]? with
  | none => simp [offsetOf, hline]
  | some line =>
      rw [offsetOf_eq_some hline]
      simp [eq_comm]

/-- The offset of a position is the first of its line from the column on, or the last of the
line. -/
lemma offsetAt_nearest {p : Position} {offset : Nat} (h : d.offsetAt p = .ok offset) :
    IsLeast (d.offsetsFrom p) offset ∨
      d.offsetsFrom p = ∅ ∧ IsGreatest (d.offsetsOn p.line) offset := by
  obtain ⟨line, hline, rfl⟩ := offsetAt_eq_ok_iff.mp h
  have hreach := d.unit.reach_le_length (addressable line) p.column
  have hplace {k : Nat} (hk : k ≤ (addressable line).length) :
      d.positionAt (lineStart d.text p.line + k) =
        .ok ⟨p.line, d.unit.measure ((addressable line).take k)⟩ :=
    positionAt_eq_ok_iff.mpr ⟨line, k, hline, hk, rfl, rfl⟩
  -- every offset of the line is one of its places
  have hon {o : Nat} {q : Position} (hq : d.positionAt o = .ok q) (hsame : q.line = p.line) :
      ∃ k ≤ (addressable line).length, q.column = d.unit.measure ((addressable line).take k) ∧
        o = lineStart d.text p.line + k := by
    obtain ⟨line', k, hline', hk, hcolumn, rfl⟩ := positionAt_eq_ok_iff.mp hq
    rw [hsame, hline, Option.some.injEq] at hline'
    subst hline'
    exact ⟨k, hk, hcolumn, by rw [hsame]⟩
  by_cases hend : d.unit.measure ((addressable line).take
      (d.unit.reach (addressable line) p.column)) < p.column
  · -- the walk came to the end of the line, where all columns are too small
    have hlast : d.unit.reach (addressable line) p.column = (addressable line).length := by
      by_contra hne
      have := d.unit.le_measure_take_reach (addressable line) p.column (by omega)
      omega
    refine .inr ⟨Set.eq_empty_iff_forall_notMem.mpr ?_, ⟨_, hplace hreach, rfl⟩, ?_⟩
    · rintro o ⟨q, hq, hsame, hcolumn⟩
      obtain ⟨k, hk, hmeasure, rfl⟩ := hon hq hsame
      rcases Nat.lt_or_eq_of_le hk with hlt | heq
      · have := d.unit.measure_take_lt (addressable line) hlt (Nat.le_refl _)
        rw [hlast] at hend
        omega
      · rw [hlast, ← heq] at hend
        omega
    · rintro o ⟨q, hq, hsame⟩
      obtain ⟨k, hk, -, rfl⟩ := hon hq hsame
      omega
  · refine .inl ⟨⟨_, hplace hreach, rfl, Nat.not_lt.mp hend⟩, ?_⟩
    rintro o ⟨q, hq, hsame, hcolumn⟩
    obtain ⟨k, hk, hmeasure, rfl⟩ := hon hq hsame
    have hle : d.unit.reach (addressable line) p.column ≤ k := by
      by_contra hlt
      have := d.unit.measure_take_lt_of_lt_reach (addressable line) p.column (Nat.not_le.mp hlt)
      omega
    omega

/-- A position that comes no earlier has no smaller offset. -/
lemma offsetAt_le_of_not_before {p q : Position} {a b : Nat} (hp : d.offsetAt p = .ok a)
    (hq : d.offsetAt q = .ok b) (h : q.before p = false) : a ≤ b := by
  obtain ⟨line, hline, rfl⟩ := offsetAt_eq_ok_iff.mp hp
  obtain ⟨line', hline', rfl⟩ := offsetAt_eq_ok_iff.mp hq
  have horder : p.line < q.line ∨ p.line = q.line ∧ p.column ≤ q.column := by
    simp only [Position.before, Bool.or_eq_false_iff, decide_eq_false_iff_not,
      Bool.and_eq_false_iff,
      beq_eq_false_iff_ne] at h
    omega
  rcases horder with hlt | ⟨heq, hcolumn⟩
  · have := lineStart_le_of_lt hline hlt (d.unit.reach_le_length (addressable line) p.column)
    omega
  · rw [heq, hline', Option.some.injEq] at hline
    subst hline
    have hreach := d.unit.reach_mono (addressable line') hcolumn
    rw [heq]
    omega

/-- A larger offset has a position that comes later. -/
lemma before_of_lt {a b : Nat} {p q : Position} (hab : a < b) (hp : d.positionAt a = .ok p)
    (hq : d.positionAt b = .ok q) : p.before q = true := by
  obtain ⟨line, k, hline, hk, hcolumn, rfl⟩ := positionAt_eq_ok_iff.mp hp
  obtain ⟨line', k', hline', hk', hcolumn', rfl⟩ := positionAt_eq_ok_iff.mp hq
  simp only [Position.before, Bool.or_eq_true, decide_eq_true_eq, Bool.and_eq_true, beq_iff_eq]
  rcases Nat.lt_trichotomy p.line q.line with hlt | heq | hgt
  · exact .inl hlt
  · rw [heq, hline', Option.some.injEq] at hline
    subst hline
    rw [heq] at hab
    have hlt := d.unit.measure_take_lt (addressable line') (j := k) (k := k') (by omega) hk'
    exact .inr ⟨heq, by omega⟩
  · have := lineStart_le_of_lt hline' hgt hk'
    omega

/-- **Offsets follow positions.**  A position on a line that exists has an offset, which is the
first of the line whose column is not smaller, or the last of the line if there is none.  A position
that comes no earlier has no smaller offset.  The position of an offset leads back to it, and the
positions of offsets come one after the other. -/
theorem offsets_follow_positions (d : Document) :
    (∀ p : Position, p.line < (lines d.text).length →
      ∃ offset, d.offsetAt p = .ok offset ∧ offset ∈ d.offsetsOn p.line ∧
        (IsLeast (d.offsetsFrom p) offset ∨
          d.offsetsFrom p = ∅ ∧ IsGreatest (d.offsetsOn p.line) offset)) ∧
    (∀ (p q : Position) (a b : Nat), q.before p = false → d.offsetAt p = .ok a →
      d.offsetAt q = .ok b → a ≤ b) ∧
    (∀ offset ≤ d.length, ∃ p, d.positionAt offset = .ok p ∧ d.offsetAt p = .ok offset) ∧
    (∀ (a b : Nat) (p q : Position), a < b → d.positionAt a = .ok p → d.positionAt b = .ok q →
      p.before q = true) := by
  refine ⟨fun p hp => ?_, fun p q a b h hp hq => offsetAt_le_of_not_before hp hq h,
    fun offset hle => ?_, fun a b p q hab hp hq => before_of_lt hab hp hq⟩
  · obtain ⟨line, hline⟩ : ∃ line, (lines d.text)[p.line]? = some line :=
      ⟨_, List.getElem?_eq_getElem hp⟩
    have hoffset := offsetAt_eq_ok_iff.mpr ⟨line, hline, rfl⟩
    have hnear := offsetAt_nearest hoffset
    refine ⟨_, hoffset, ?_, hnear⟩
    rcases hnear with ⟨⟨q, hq, hsame, -⟩, -⟩ | ⟨-, hmem, -⟩
    · exact ⟨q, hq, hsame⟩
    · exact hmem
  · obtain ⟨p, hp⟩ := d.exists_positionAt hle
    exact ⟨p, hp, offsetAt_positionAt hp⟩

/-- A document with a character of two units and a break of two characters. -/
def pairedDocument : Document :=
  .parse default 1 .utf16 "a😀\r\nb".toList

theorem offsets_follow_positions_paired :
    (∃ offset, pairedDocument.offsetAt ⟨0, 2⟩ = .ok offset ∧ offset ∈ pairedDocument.offsetsOn 0 ∧
      (IsLeast (pairedDocument.offsetsFrom ⟨0, 2⟩) offset ∨
        pairedDocument.offsetsFrom ⟨0, 2⟩ = ∅ ∧
          IsGreatest (pairedDocument.offsetsOn 0) offset)) ∧
      pairedDocument.offsetAt ⟨0, 2⟩ = .ok 2 ∧
    pairedDocument.offsetAt ⟨0, 9⟩ = .ok 3 ∧ pairedDocument.offsetAt ⟨1, 0⟩ = .ok 4 ∧ 3 ≤ 4 ∧
    (∃ p, pairedDocument.positionAt 3 = .ok p ∧ pairedDocument.offsetAt p = .ok 3) ∧
    Position.before ⟨0, 4⟩ ⟨1, 0⟩ = true := by
  obtain ⟨hnearest, hmonotone, hback, hincreasing⟩ := offsets_follow_positions pairedDocument
  have hend : pairedDocument.offsetAt ⟨0, 9⟩ = .ok 3 := by decide +kernel
  have hnext : pairedDocument.offsetAt ⟨1, 0⟩ = .ok 4 := by decide +kernel
  exact ⟨hnearest ⟨0, 2⟩ (by decide +kernel), by decide +kernel, hend, hnext,
    hmonotone ⟨0, 9⟩ ⟨1, 0⟩ 3 4 (by decide) hend hnext, hback 3 (by decide +kernel),
    hincreasing 3 4 ⟨0, 4⟩ ⟨1, 0⟩ (by omega) (by decide +kernel) (by decide +kernel)⟩

end Document

end XmlAdvisor
