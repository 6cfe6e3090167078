import XmlAdvisor.Proofs.PositionOrder
import XmlAdvisor.Proofs.TokenOrder

/-!
# The offset of a fault

A fault is found at an offset, is reported at a row and a column, and is recorded at the offset that
these are taken for.  The two ways do not count alike: only a line feed ends a row, while a line
ends at every break.

**Rows.**  A line holds at most one line feed, as its last character.  So an offset is on a row no
later than its line (`feedsBefore_le`), and on the row of that number exactly if all the lines
before it end in line feeds (`feedsBefore_eq_iff`).

**Drift.**  A break that is no line feed leaves the rows behind the lines, and a fault behind it is
recorded too early.  A column past the end of a line stands for that end, so a break right in front
of the fault does no harm.

* `ScanState.FailsAt` — where a step fails, it fails at its cursor.
* `FeedsAlone` — whether line feeds alone end the lines in front of an offset.
* **`Tree.faultOffset_eq_iff`** — where a fault is recorded, and when that is where it was found.
-/

namespace XmlAdvisor

/-! ## Rows and columns -/

lemma advanceRowColumn_append (xs ys : List Char) (p : Nat × Nat) :
    advanceRowColumn (xs ++ ys) p = advanceRowColumn ys (advanceRowColumn xs p) := by
  induction xs generalizing p with
  | nil => rfl
  | cons x xs ih => exact ih _

/-- The number of characters behind the last line feed. -/
def sinceFeed (cs : List Char) : Nat :=
  (cs.reverse.takeWhile (· != '\n')).length

/-- The row counts the line feeds that were read, the column the characters since the last of
them. -/
lemma advanceRowColumn_eq (cs : List Char) :
    advanceRowColumn cs (1, 1) = (1 + cs.count '\n', 1 + sinceFeed cs) := by
  induction cs using List.reverseRecOn with
  | nil => rfl
  | append_singleton cs c ih =>
      rw [advanceRowColumn_append, ih, advanceRowColumn, advanceRowColumn, sinceFeed, sinceFeed,
        List.reverse_concat, List.count_append]
      by_cases hc : c = '\n'
      · subst hc
        simp [Nat.add_assoc]
      · simp [hc, Nat.add_assoc]

/-- The characters since the last line feed, when none is among the later ones. -/
lemma sinceFeed_append {xs ys : List Char} (h : '\n' ∉ ys) :
    sinceFeed (xs ++ ys) = ys.length + sinceFeed xs := by
  rw [sinceFeed, sinceFeed, List.reverse_append, List.takeWhile_append_of_pos, List.length_append,
    List.length_reverse]
  intro c hc
  rw [List.mem_reverse] at hc
  exact bne_iff_ne.mpr fun heq => h (heq ▸ hc)

/-! ## Line feeds and lines -/

/-- A line feed ends its line. -/
lemma notMem_dropLast_of_mem_lines (text line : List Char) (h : line ∈ lines text) :
    '\n' ∉ line.dropLast := by
  fun_induction lines text generalizing line with
  | case1 =>
      rw [List.mem_singleton.mp h]
      exact List.not_mem_nil
  | case2 rest ih =>
      rcases List.mem_cons.mp h with rfl | h
      · decide
      · exact ih line h
  | case3 c rest hcr hbreak ih =>
      rcases List.mem_cons.mp h with rfl | h
      · exact List.not_mem_nil
      · exact ih line h
  | case4 c rest hcr hbreak hnil ih => exact absurd hnil (lines_ne_nil rest)
  | case5 c rest hcr hbreak head more hlines ih =>
      rw [hlines] at ih
      rcases List.mem_cons.mp h with rfl | h
      · have hhead := ih head (List.mem_cons_self ..)
        cases head with
        | nil => exact List.not_mem_nil
        | cons d head =>
            rw [List.dropLast_cons_of_ne_nil (List.cons_ne_nil d head), List.mem_cons, not_or]
            refine ⟨?_, hhead⟩
            rintro rfl
            exact hbreak (by decide)
      · exact ih line (List.mem_cons_of_mem head h)

variable {text line : List Char} {i : Nat}

lemma exists_line (hi : i < (lines text).length) : ∃ line, (lines text)[i]? = some line :=
  ⟨_, List.getElem?_eq_getElem hi⟩

/-- A line with a line feed ends in it. -/
lemma feed_mem_iff (h : line ∈ lines text) : '\n' ∈ line ↔ line.getLast? = some '\n' := by
  refine ⟨fun hmem => ?_, List.mem_of_getLast?⟩
  cases hlast : line.getLast? with
  | none =>
      rw [List.getLast?_eq_none_iff.mp hlast] at hmem
      cases hmem
  | some c =>
      rw [← List.dropLast_append_getLast? c hlast, List.mem_append, List.mem_singleton] at hmem
      rcases hmem with hmem | rfl
      · exact absurd hmem (notMem_dropLast_of_mem_lines text line h)
      · rfl

/-- No line feed is in front of a place on its line. -/
lemma notMem_take_of_addressable (h : (lines text)[i]? = some line) {k : Nat}
    (hk : k ≤ (addressable line).length) : '\n' ∉ line.take k := by
  intro hmem
  have hline := List.mem_of_getElem? h
  have hlast := (feed_mem_iff hline).mp (List.mem_of_mem_take hmem)
  -- what can be addressed is all but the line feed
  have hshort : line.take k <+: line.dropLast := by
    rw [addressable, hlast] at hk
    exact List.prefix_of_prefix_length_le (List.take_prefix k line) (List.dropLast_prefix line)
      (Nat.le_trans (List.length_take_le k line) hk)
  exact notMem_dropLast_of_mem_lines text line hline (hshort.subset hmem)

/-- The number of line feeds in front of a line. -/
def feedsBefore (text : List Char) (i : Nat) : Nat :=
  ((lines text).take i).flatten.count '\n'

lemma feedsBefore_succ (h : (lines text)[i]? = some line) :
    feedsBefore text (i + 1) =
      feedsBefore text i + if line.getLast? = some '\n' then 1 else 0 := by
  have hline := List.mem_of_getElem? h
  have hcount : line.count '\n' = if line.getLast? = some '\n' then 1 else 0 := by
    split_ifs with hlast
    · rw [← List.dropLast_append_getLast? _ hlast, List.count_append,
        List.count_eq_zero_of_not_mem (notMem_dropLast_of_mem_lines text line hline),
        List.count_singleton_self]
    · exact List.count_eq_zero_of_not_mem fun hmem => hlast ((feed_mem_iff hline).mp hmem)
  rw [feedsBefore, List.take_add_one, h, Option.toList_some, List.flatten_append, List.count_append,
    List.flatten_singleton, hcount, feedsBefore]

/-- A line is on a row of its number at most. -/
lemma feedsBefore_le (text : List Char) (i : Nat) : feedsBefore text i ≤ i := by
  induction i with
  | zero => exact Nat.le_refl 0
  | succ i ih =>
      cases h : (lines text)[i]? with
      | none =>
          have hlong : (lines text).length ≤ i := List.getElem?_eq_none_iff.mp h
          rw [feedsBefore, List.take_of_length_le hlong] at ih
          rw [feedsBefore, List.take_of_length_le (Nat.le_succ_of_le hlong)]
          omega
      | some line =>
          rw [feedsBefore_succ h]
          split_ifs <;> omega

/-- A line is on the row of its number exactly if all the lines before it end in line feeds. -/
lemma feedsBefore_eq_iff (hi : i ≤ (lines text).length) : feedsBefore text i = i ↔
    ∀ j line, (lines text)[j]? = some line → j < i → line.getLast? = some '\n' := by
  induction i with
  | zero => exact ⟨fun _ j line _ hj => absurd hj (Nat.not_lt_zero j), fun _ => rfl⟩
  | succ i ih =>
      have hle := feedsBefore_le text i
      obtain ⟨line, hline⟩ := exists_line hi
      rw [feedsBefore_succ hline]
      constructor
      · intro h j l hl hj
        have hends : line.getLast? = some '\n' := by
          by_contra hnot
          rw [if_neg hnot] at h
          omega
        rw [if_pos hends] at h
        rcases Nat.lt_or_eq_of_le (Nat.le_of_lt_succ hj) with hlt | rfl
        · exact (ih (by omega)).mp (by omega) j l hl hlt
        · rw [hline, Option.some.injEq] at hl
          rwa [← hl]
      · intro h
        rw [if_pos (h i line hline (Nat.lt_succ_self i)),
          (ih (by omega)).mpr fun j l hl hj => h j l hl (Nat.lt_succ_of_lt hj)]

/-! ## Places -/

/-- An offset inside a text is a place on one of its lines. -/
lemma exists_place {offset : Nat} (h : offset ≤ text.length) : ∃ i line k,
    (lines text)[i]? = some line ∧ k ≤ (addressable line).length ∧
    offset = lineStart text i + k := by
  obtain ⟨p, hp⟩ := exists_positionAmong .utf32 (lines text) 0 offset (lines_ne_nil text)
    (by rwa [flatten_lines])
  obtain ⟨line, k, hline, hk, -, hoffset⟩ := positionOf_eq_some_iff.mp hp
  exact ⟨p.line, line, k, hline, hk, hoffset⟩

/-- What is in front of a place: the lines before, and some of its line. -/
lemma take_place (h : (lines text)[i]? = some line) {k : Nat} (hk : k ≤ line.length) :
    text.take (lineStart text i + k) = ((lines text).take i).flatten ++ line.take k := by
  have hsplit : text = ((lines text).take i).flatten ++
      (line ++ ((lines text).drop (i + 1)).flatten) := by
    nth_rewrite 1 [← flatten_lines text, ← List.take_append_drop i (lines text)]
    rw [List.flatten_append, List.drop_eq_getElem_cons (List.getElem?_eq_some_iff.mp h).1,
      (List.getElem?_eq_some_iff.mp h).2, List.flatten_cons]
  have hlength : (((lines text).take i).flatten).length = lineStart text i := by
    rw [lineStart, List.length_flatten, List.sum_eq_foldr]
  calc text.take (lineStart text i + k)
      = (((lines text).take i).flatten ++ (line ++ ((lines text).drop (i + 1)).flatten)).take
          (((lines text).take i).flatten.length + k) := by rw [← hsplit, hlength]
    _ = ((lines text).take i).flatten ++ line.take k := by
      rw [List.take_length_add_append, List.take_append_of_le_length hk]

/-- The row and the column of a place. -/
lemma rowColumn_place (h : (lines text)[i]? = some line) {k : Nat}
    (hk : k ≤ (addressable line).length) :
    rowColumn text (lineStart text i + k) = (1 + feedsBefore text i,
      1 + (k + sinceFeed ((lines text).take i).flatten)) := by
  have hnone := notMem_take_of_addressable h hk
  have hlength := Nat.le_trans hk (addressable_leading line).1.length_le
  rw [rowColumn, take_place h hlength, advanceRowColumn_eq, List.count_append,
    List.count_eq_zero_of_not_mem hnone, sinceFeed_append hnone, List.length_take,
    Nat.min_eq_left hlength]
  rfl

/-! ## Breaks -/

lemma length_pos_of_getLast? {α : Type} {xs : List α} {x : α} (h : xs.getLast? = some x) :
    0 < xs.length := by
  rw [List.length_pos_iff]
  rintro rfl
  cases h

/-- All lines but the last one end in a break. -/
lemma exists_break (h : (lines text)[i]? = some line) (hi : i + 1 < (lines text).length) :
    ∃ c, line.getLast? = some c ∧ isLineBreak c = true := by
  refine isLineBreak_of_mem_dropLast text line ?_
  rw [List.dropLast_eq_take, List.mem_iff_getElem?]
  exact ⟨i, by rw [List.getElem?_take_of_lt (by omega), h]⟩

/-- Each line begins behind the beginnings of those before it. -/
lemma lineStart_lt {j : Nat} (hij : i < j) (hj : j < (lines text).length) :
    lineStart text i < lineStart text j := by
  obtain ⟨line, hline⟩ := exists_line (Nat.lt_trans hij hj)
  obtain ⟨c, hc, -⟩ := exists_break hline (Nat.lt_of_le_of_lt hij hj)
  have hpos := length_pos_of_getLast? hc
  have hsucc := lineStart_succ hline
  have hmono : lineStart text (i + 1) ≤ lineStart text j := lineStart_mono hij
  omega

/-- A line that begins before another one comes before it. -/
lemma lt_of_lineStart_lt {j : Nat} (h : lineStart text i < lineStart text j) : i < j := by
  by_contra hle
  exact absurd (lineStart_mono (Nat.le_of_not_lt hle)) (Nat.not_le_of_lt h)

/-- Whether a line ends with the character at `i`, which is `c`. -/
def EndsLine (text : List Char) (i : Nat) (c : Char) : Prop :=
  ∃ j line, (lines text)[j]? = some line ∧ line.getLast? = some c ∧ lineStart text (j + 1) = i + 1

/-- Behind a first line that is complete, lines end where those of the rest do. -/
lemma endsLine_of_lines_eq {head rest : List Char} {c : Char}
    (h : lines text = head :: lines rest) :
    EndsLine text i c ↔ head.getLast? = some c ∧ head.length = i + 1 ∨
      head.length ≤ i ∧ EndsLine rest (i - head.length) c := by
  have hstart (j : Nat) : lineStart text (j + 1) = head.length + lineStart rest j := by
    rw [lineStart, h]
    rfl
  constructor
  · rintro ⟨j, line, hline, hlast, hplace⟩
    rw [hstart] at hplace
    rw [h] at hline
    cases j with
    | zero =>
        cases hline
        exact .inl ⟨hlast, hplace⟩
    | succ j =>
        rw [List.getElem?_cons_succ] at hline
        have hpos := length_pos_of_getLast? hlast
        have hsucc := lineStart_succ hline
        exact .inr ⟨by omega, j, line, hline, hlast, by omega⟩
  · rintro (⟨hlast, hplace⟩ | ⟨hle, j, line, hline, hlast, hplace⟩)
    · exact ⟨0, head, by rw [h]; rfl, hlast, by rw [hstart]; exact hplace⟩
    · refine ⟨j + 1, line, by rw [h]; exact hline, hlast, ?_⟩
      rw [hstart]
      omega

/-- A character in front of the first line moves the ends of the lines on. -/
lemma endsLine_of_lines_extended {head rest : List Char} {more : List (List Char)} {c d : Char}
    (hrest : lines rest = head :: more) (h : lines text = (d :: head) :: more) (hcd : c ≠ d) :
    EndsLine text i c ↔ 0 < i ∧ EndsLine rest (i - 1) c := by
  have hstart (j : Nat) : lineStart text (j + 1) = lineStart rest (j + 1) + 1 := by
    rw [lineStart, lineStart, h, hrest]
    simp only [List.take_succ_cons, List.map_cons, List.foldr_cons, List.length_cons]
    omega
  have hlast : (d :: head).getLast? = some c ↔ head.getLast? = some c := by
    cases head with
    | nil => simp [hcd.symm]
    | cons e head => rw [List.getLast?_cons_cons]
  -- the lines of the two texts that end in a break are the same but for the first character
  have hline (j : Nat) : (∃ line, (lines text)[j]? = some line ∧ line.getLast? = some c) ↔
      ∃ line, (lines rest)[j]? = some line ∧ line.getLast? = some c := by
    rw [h, hrest]
    cases j with
    | zero => simpa using hlast
    | succ j => rfl
  constructor
  · rintro ⟨j, line, hl, hends, hplace⟩
    obtain ⟨line', hl', hends'⟩ := (hline j).mp ⟨line, hl, hends⟩
    have hpos := length_pos_of_getLast? hends'
    have hsucc := lineStart_succ hl'
    rw [hstart] at hplace
    exact ⟨by omega, j, line', hl', hends', by omega⟩
  · rintro ⟨hpos, j, line, hl, hends, hplace⟩
    obtain ⟨line', hl', hends'⟩ := (hline j).mpr ⟨line, hl, hends⟩
    refine ⟨j, line', hl', hends', ?_⟩
    rw [hstart]
    omega

/-- **Where lines end**: behind each break, but not between a carriage return and its line feed. -/
lemma endsLine_iff (text : List Char) (i : Nat) {c : Char} (hc : isLineBreak c = true) :
    EndsLine text i c ↔ text[i]? = some c ∧ (c = '\r' → text[i + 1]? ≠ some '\n') := by
  fun_induction lines text generalizing i with
  | case1 =>
      constructor
      · rintro ⟨j, line, hline, hends, -⟩
        rw [lines, List.mem_singleton.mp (List.mem_of_getElem? hline)] at *
        cases hends
      · rintro ⟨⟨⟩, -⟩
  | case2 rest ih =>
      have hlines : lines ('\r' :: '\n' :: rest) = ['\r', '\n'] :: lines rest := by rw [lines]
      rw [endsLine_of_lines_eq hlines]
      rcases i with _ | _ | i
      · simp [eq_comm]
      · simp
        rintro rfl ⟨⟩
      · simp [ih]
  | case3 d rest hcr hbreak ih =>
      have hlines : lines (d :: rest) = [d] :: lines rest := by
        rw [lines, if_pos hbreak]
        exact hcr
      rw [endsLine_of_lines_eq hlines]
      cases i with
      | zero =>
          have hfeed : d = '\r' → rest[0]? ≠ some '\n' := by
            intro hd hfirst
            cases rest with
            | nil => cases hfirst
            | cons e rest =>
                cases hfirst
                exact hcr rest hd rfl
          constructor
          · rintro (⟨hlast, -⟩ | ⟨hle, -⟩)
            · cases hlast
              exact ⟨rfl, hfeed⟩
            · cases hle
          · rintro ⟨hd, -⟩
            exact .inl ⟨hd, rfl⟩
      | succ i => simp [ih]
  | case4 d rest hcr hbreak hnil ih => exact absurd hnil (lines_ne_nil rest)
  | case5 d rest hcr hbreak head more hlines ih =>
      have hcd : c ≠ d := by
        rintro rfl
        exact hbreak hc
      have hextended : lines (d :: rest) = (d :: head) :: more := by
        rw [lines, if_neg hbreak, hlines]
        exact hcr
      rw [endsLine_of_lines_extended hlines hextended hcd]
      cases i with
      | zero => simp [hcd.symm]
      | succ i => simp [ih]

/-- Whether the lines in front of an offset are ended by line feeds, but for one that ends there. -/
def FeedsAlone (text : List Char) (offset : Nat) : Prop :=
  ∀ i c, text[i]? = some c → isLineBreak c = true → i + 1 < offset →
    c = '\n' ∨ c = '\r' ∧ text[i + 1]? = some '\n'

lemma feedsAlone_iff {offset : Nat} (hoffset : offset ≤ text.length) : FeedsAlone text offset ↔
    ∀ j line, (lines text)[j]? = some line → lineStart text (j + 1) < offset →
      line.getLast? = some '\n' := by
  constructor
  · intro h j line hline hbefore
    have hj := (List.getElem?_eq_some_iff.mp hline).1
    have hnext : j + 1 < (lines text).length := by
      by_contra hlast
      have hall : j + 1 = (lines text).length := by omega
      rw [hall, lineStart_length] at hbefore
      omega
    obtain ⟨c, hlast, hbreak⟩ := exists_break hline hnext
    have hpos := length_pos_of_getLast? hlast
    have hsucc := lineStart_succ hline
    have hends : EndsLine text (lineStart text (j + 1) - 1) c := ⟨j, line, hline, hlast, by omega⟩
    obtain ⟨hc, hreturn⟩ := (endsLine_iff text _ hbreak).mp hends
    rcases h _ c hc hbreak (by omega) with rfl | ⟨hcr, hfeed⟩
    · exact hlast
    · exact absurd hfeed (hreturn hcr)
  · intro h i c hc hbreak hbefore
    by_cases hpair : c = '\r' ∧ text[i + 1]? = some '\n'
    · exact .inr hpair
    · obtain ⟨j, line, hline, hlast, hplace⟩ :=
        (endsLine_iff text i hbreak).mpr ⟨hc, fun hcr hfeed => hpair ⟨hcr, hfeed⟩⟩
      have hends := h j line hline (by omega)
      rw [hlast] at hends
      exact .inl (Option.some.inj hends)

/-! ## Reading a row and a column back -/

/-- The offset that the row and the column of an offset are taken for. -/
def offsetReadBack (text : List Char) (offset : Nat) : Nat :=
  offsetOfRowColumn text (rowColumn text offset).1 (rowColumn text offset).2

lemma offsetOfRowColumn_eq (h : (lines text)[i]? = some line) (k : Nat) :
    offsetOfRowColumn text (1 + i) (1 + k) = lineStart text i + min k line.length := by
  have hi := (List.getElem?_eq_some_iff.mp h).1
  have hline : min (1 + i - 1) ((lines text).length - 1) = i := by omega
  rw [offsetOfRowColumn, hline, h, Nat.add_sub_cancel_left]
  rfl

/-- Behind a line feed no character has been read since the last one. -/
lemma sinceFeed_of_feed (h : (lines text)[i]? = some line) (hfeed : line.getLast? = some '\n') :
    sinceFeed ((lines text).take (i + 1)).flatten = 0 := by
  rw [sinceFeed, List.take_add_one, h, Option.toList_some, List.flatten_append,
    List.flatten_singleton,
    ← List.dropLast_append_getLast? _ hfeed, ← List.append_assoc, List.reverse_concat,
    List.takeWhile_cons_of_neg (by simp), List.length_nil]

/-- Behind a line without a line feed, all of its characters have been read since the last one. -/
lemma length_le_sinceFeed (h : (lines text)[i]? = some line) (hfeed : line.getLast? ≠ some '\n') :
    line.length ≤ sinceFeed ((lines text).take (i + 1)).flatten := by
  have hnone : '\n' ∉ line := fun hmem =>
    hfeed ((feed_mem_iff (List.mem_of_getElem? h)).mp hmem)
  rw [List.take_add_one, h, Option.toList_some, List.flatten_append, List.flatten_singleton,
    sinceFeed_append hnone]
  exact Nat.le_add_right _ _

/-- What the row and the column of a place are taken for: a place on a line that is not a later
one. -/
lemma offsetReadBack_place (h : (lines text)[i]? = some line) {k : Nat}
    (hk : k ≤ (addressable line).length) :
    ∃ row, (lines text)[feedsBefore text i]? = some row ∧
      offsetReadBack text (lineStart text i + k) = lineStart text (feedsBefore text i) +
        min (k + sinceFeed ((lines text).take i).flatten) row.length := by
  have hi := (List.getElem?_eq_some_iff.mp h).1
  obtain ⟨row, hrow⟩ := exists_line (Nat.lt_of_le_of_lt (feedsBefore_le text i) hi)
  refine ⟨row, hrow, ?_⟩
  rw [offsetReadBack, rowColumn_place h hk, offsetOfRowColumn_eq hrow]

/-- If line feeds end all lines before a place, its row and column lead back to it. -/
lemma offsetReadBack_of_feeds (h : (lines text)[i]? = some line) {k : Nat}
    (hk : k ≤ (addressable line).length) (hfeeds : feedsBefore text i = i) :
    offsetReadBack text (lineStart text i + k) = lineStart text i + k := by
  have hlength := Nat.le_trans hk (addressable_leading line).1.length_le
  obtain ⟨row, hrow, hback⟩ := offsetReadBack_place h hk
  rw [hfeeds, h, Option.some.injEq] at hrow
  have hsince : sinceFeed ((lines text).take i).flatten = 0 := by
    cases i with
    | zero => rfl
    | succ j =>
        have hj := (List.getElem?_eq_some_iff.mp h).1
        obtain ⟨before, hbefore⟩ := exists_line (Nat.lt_of_succ_lt hj)
        exact sinceFeed_of_feed hbefore
          ((feedsBefore_eq_iff (Nat.le_of_lt hj)).mp hfeeds j before hbefore (Nat.lt_succ_self j))
  rw [hback, hfeeds, hsince, ← hrow]
  omega

/-- If a line before a place ends in another break, its row and column lead to no later a place than
the start of its line. -/
lemma offsetReadBack_le_lineStart (h : (lines text)[i]? = some line) {k : Nat}
    (hk : k ≤ (addressable line).length) (hfeeds : feedsBefore text i < i) :
    offsetReadBack text (lineStart text i + k) ≤ lineStart text i := by
  obtain ⟨row, hrow, hback⟩ := offsetReadBack_place h hk
  have hsucc := lineStart_succ hrow
  have hmono : lineStart text (feedsBefore text i + 1) ≤ lineStart text i := lineStart_mono hfeeds
  omega

/-- The row and the column of the start of a line lead back to it if only the line before it ends in
another break. -/
lemma offsetReadBack_lineStart_iff (h : (lines text)[i + 1]? = some line)
    (hfeeds : feedsBefore text (i + 1) < i + 1) :
    offsetReadBack text (lineStart text (i + 1)) = lineStart text (i + 1) ↔
      feedsBefore text i = i := by
  have hi := (List.getElem?_eq_some_iff.mp h).1
  obtain ⟨before, hbefore⟩ := exists_line (Nat.lt_of_succ_lt hi)
  obtain ⟨row, hrow, hback⟩ := offsetReadBack_place h (Nat.zero_le _)
  rw [Nat.add_zero, Nat.zero_add] at hback
  have hsucc := lineStart_succ hrow
  have hcount := feedsBefore_succ hbefore
  have hle := feedsBefore_le text i
  constructor
  · intro heq
    -- the line that is taken for the row ends where the place is, so it is the one before
    have hsame : feedsBefore text (i + 1) = i := by
      by_contra hne
      have hlt : lineStart text (feedsBefore text (i + 1) + 1) < lineStart text (i + 1) :=
        lineStart_lt (by omega) hi
      omega
    by_cases hfeed : before.getLast? = some '\n'
    · have hpos := length_pos_of_getLast? hfeed
      rw [sinceFeed_of_feed hbefore hfeed, hsame] at hback
      have hnext := lineStart_succ hbefore
      omega
    · rw [if_neg hfeed] at hcount
      omega
  · intro hall
    have hfeed : before.getLast? ≠ some '\n' := by
      intro hfeed
      rw [if_pos hfeed] at hcount
      omega
    rw [if_neg hfeed, hall] at hcount
    rw [hcount, Nat.add_zero, hbefore, Option.some.injEq] at hrow
    subst hrow
    have hlong := length_le_sinceFeed hbefore hfeed
    rw [hback, hcount, Nat.add_zero, Nat.min_eq_right hlong, lineStart_succ hbefore]

/-- **Reading back.**  The row and the column of an offset are never taken for a later one, and for
the offset itself exactly if line feeds alone end the lines in front of it. -/
theorem offsetReadBack_eq_iff {offset : Nat} (hoffset : offset ≤ text.length) :
    offsetReadBack text offset ≤ offset ∧
      (offsetReadBack text offset = offset ↔ FeedsAlone text offset) := by
  obtain ⟨i, line, k, hline, hk, rfl⟩ := exists_place hoffset
  have hi := (List.getElem?_eq_some_iff.mp hline).1
  have hlength := Nat.le_trans hk (addressable_leading line).1.length_le
  have hsucc := lineStart_succ hline
  rw [feedsAlone_iff hoffset]
  rcases Nat.eq_or_lt_of_le (feedsBefore_le text i) with hfeeds | hfeeds
  · have hback := offsetReadBack_of_feeds hline hk hfeeds
    refine ⟨Nat.le_of_eq hback, fun _ j l hl hj => ?_, fun _ => hback⟩
    have hstart : lineStart text (j + 1) < lineStart text (i + 1) := by omega
    have hlt := lt_of_lineStart_lt hstart
    exact (feedsBefore_eq_iff (Nat.le_of_lt hi)).mp hfeeds j l hl (by omega)
  · obtain ⟨m, rfl⟩ : ∃ m, i = m + 1 := ⟨i - 1, by omega⟩
    have hle := offsetReadBack_le_lineStart hline hk hfeeds
    have hexact := offsetReadBack_lineStart_iff hline hfeeds
    refine ⟨Nat.le_trans hle (Nat.le_add_right _ k), fun heq j l hl hj => ?_, fun h => ?_⟩
    · obtain rfl : k = 0 := by omega
      have hlt := lt_of_lineStart_lt hj
      exact (feedsBefore_eq_iff (by omega)).mp (hexact.mp heq) j l hl (by omega)
    · have hall : feedsBefore text m = m := (feedsBefore_eq_iff (by omega)).mpr fun j l hl hj =>
        h j l hl (Nat.lt_of_lt_of_le (lineStart_lt (Nat.succ_lt_succ hj) hi) (Nat.le_add_right _ k))
      -- with characters in front of it on its line, the place would be behind line feeds alone
      obtain rfl : k = 0 := by
        by_contra hpos
        have hmost : feedsBefore text (m + 1) = m + 1 :=
          (feedsBefore_eq_iff (Nat.le_of_lt hi)).mpr fun j l hl hj => by
            have hmono : lineStart text (j + 1) ≤ lineStart text (m + 1) := lineStart_mono hj
            exact h j l hl (by omega)
        omega
      exact hexact.mpr hall

/-! ## Where steps fail -/

namespace ScanState

variable {s : ScanState} {o : Nat}

/-- Whether a step fails at an offset, if it fails. -/
def FailsAt (o : Nat) (r : StepResult) : Prop :=
  ∀ f, r = .error f → f.offset = o

lemma failsAt_ok (x : Option Token × ScanState) : FailsAt o (.ok x) := by
  rintro _ ⟨⟩

lemma read_failsAt (what : Construct) (scan : Scan (Option Token)) :
    FailsAt s.cursor.offset (s.read what scan) := by
  intro f hf
  rw [read] at hf
  cases hread : scan s.cursor with
  | error cause =>
      rw [hread] at hf
      cases hf
      rfl
  | ok r =>
      rw [hread] at hf
      cases hf

lemma refuse_failsAt : FailsAt s.cursor.offset s.refuse := by
  rintro _ ⟨⟩
  rfl

lemma misc_failsAt {other : StepResult} (ho : FailsAt s.cursor.offset other) :
    FailsAt s.cursor.offset (s.misc other) := by
  rw [misc]
  split_ifs
  · exact read_failsAt _ _
  · exact refuse_failsAt
  · exact read_failsAt _ _
  · exact failsAt_ok _
  · exact ho

lemma stepProlog_failsAt : FailsAt s.cursor.offset s.stepProlog := by
  rw [stepProlog]
  split_ifs
  · split
    · exact failsAt_ok _
    · exact read_failsAt _ _
  · exact misc_failsAt (failsAt_ok _)

lemma stepSubset_failsAt : FailsAt s.cursor.offset s.stepSubset := by
  rw [stepSubset, skipDeclaration]
  split_ifs
  · exact read_failsAt _ _
  · exact read_failsAt (s := s.into .beforeRoot) _ _
  · exact failsAt_ok _
  · exact refuse_failsAt
  · exact misc_failsAt refuse_failsAt

lemma stepBeforeRoot_failsAt : FailsAt s.cursor.offset s.stepBeforeRoot := by
  rw [stepBeforeRoot]
  refine misc_failsAt ?_
  split_ifs
  · exact refuse_failsAt
  · exact read_failsAt (s := s.into .insideTag) _ _
  · exact refuse_failsAt

lemma stepContent_failsAt : FailsAt s.cursor.offset s.stepContent := by
  rw [stepContent]
  dsimp only
  split_ifs
  · exact read_failsAt _ _
  · exact read_failsAt _ _
  · exact refuse_failsAt
  · exact read_failsAt _ _
  · exact read_failsAt (s := { s with depth := s.depth - 1, mode := afterTag (s.depth - 1) }) _ _
  · exact refuse_failsAt
  · exact read_failsAt (s := s.into .insideTag) _ _
  · exact read_failsAt _ _

lemma stepInsideTag_failsAt : FailsAt s.cursor.offset s.stepInsideTag := by
  rw [stepInsideTag]
  split
  · exact failsAt_ok _
  · exact failsAt_ok _
  · exact read_failsAt _ _

/-- A step that fails does so at its cursor, in every mode. -/
lemma step_failsAt : FailsAt s.cursor.offset s.step := by
  rw [step]
  split
  · split_ifs
    · exact read_failsAt (s := s.into .prolog) _ _
    · exact failsAt_ok _
  · exact stepProlog_failsAt
  · exact stepSubset_failsAt
  · exact stepBeforeRoot_failsAt
  · exact stepContent_failsAt
  · exact stepInsideTag_failsAt
  · exact misc_failsAt refuse_failsAt

/-- A scan that fails does so inside the text. -/
lemma fault_le_of_scan (steps : Nat) (h : s.Within text) {f : Fault}
    (hf : (s.scan steps).2 = some f) : f.offset ≤ text.length := by
  induction steps generalizing s with
  | zero => cases hf
  | succ steps ih =>
      rw [scan] at hf
      split_ifs at hf
      cases hstep : s.step with
      | error fault =>
          rw [hstep] at hf
          cases hf
          rw [step_failsAt f hstep]
          exact h.2
      | ok r =>
          obtain ⟨token, s'⟩ := r
          rw [hstep] at hf
          exact ih (step_orderly h token s' hstep).2.1 hf

end ScanState

/-! ## Trees -/

namespace Tree

/-- A fault is inside the text. -/
lemma fault_le_length {f : Fault} (hf : (Tree.parse text).fault = some f) :
    f.offset ≤ text.length := by
  have hscan : (scanAll text).2 = some f := hf
  exact ScanState.fault_le_of_scan _ ⟨startCursor_readsFrom text, startCursor_offset_le text⟩ hscan

/-- A fault is recorded at the offset that its row and its column are taken for. -/
lemma faultOffset?_eq (t : Tree) :
    t.faultOffset? = t.fault.map fun f => offsetReadBack t.text f.offset := rfl

/-- **The offset of a fault.**  A fault is reported at the row and the column of the place where it
was found: the line feeds before it and the characters since the last of them are counted.  It is
recorded at no later offset, and at the same one exactly if line feeds alone end the lines in front
of it. -/
theorem faultOffset_eq_iff (f : Fault) (hf : (Tree.parse text).fault = some f) :
    f.offset ≤ text.length ∧
    rowColumn text f.offset =
      (1 + (text.take f.offset).count '\n', 1 + sinceFeed (text.take f.offset)) ∧
    ∃ o, (Tree.parse text).faultOffset? = some o ∧ o ≤ f.offset ∧
      (o = f.offset ↔ FeedsAlone text f.offset) := by
  have hinside := fault_le_length hf
  refine ⟨hinside, advanceRowColumn_eq _, offsetReadBack text f.offset, ?_,
    offsetReadBack_eq_iff hinside⟩
  rw [faultOffset?_eq, hf]
  rfl

/-- Behind line feeds the fault is recorded where it was found. -/
theorem faultOffset_eq_iff_fed :
    (Tree.parse "<a>\r\n\n <".toList).fault = some (.unknownToken 7) ∧
    rowColumn "<a>\r\n\n <".toList 7 = (3, 2) ∧
    (Tree.parse "<a>\r\n\n <".toList).faultOffset? = some 7 ∧
    FeedsAlone "<a>\r\n\n <".toList 7 := by
  have hf : (Tree.parse "<a>\r\n\n <".toList).fault = some (.unknownToken 7) := by decide +kernel
  have hrecorded : (Tree.parse "<a>\r\n\n <".toList).faultOffset? = some 7 := by decide +kernel
  obtain ⟨-, hrow, o, ho, -, hexact⟩ := faultOffset_eq_iff (.unknownToken 7) hf
  refine ⟨hf, hrow.trans (by decide), hrecorded, hexact.mp ?_⟩
  exact Option.some.inj (ho.symm.trans hrecorded)

/-- A carriage return in front of the fault: it was found at the second `<`, where the row ends. -/
theorem faultOffset_behind_return :
    (Tree.parse "<a>\r <".toList).fault.map Fault.offset = some 5 ∧
      (Tree.parse "<a>\r <".toList).faultOffset? = some 4 := by
  decide +kernel

end Tree

end XmlAdvisor
